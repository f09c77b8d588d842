import SessionHost.Output.Marker

/-!
# Finding a marker chunk by chunk

`Marker.occurrences` are the places behind the leftmost non-overlapping occurrences of a marker in a
text. A reader that keeps `Marker.kept` of the text so far finds in each chunk just the occurrences
that end in it: what is kept begins behind the last occurrence, and no later one can begin before it.

* `occurrences_spec`: they are occurrences, none overlaps another, and one that is passed over overlaps
  one that begins before it.
* `occurrences_append`: a longer text has the same occurrences, and then those that are found behind
  what is kept.
* `scan_eq`: a scan gives the last of them.
* `advance_eq`: a chunk is answered by whether there are more of them now, and what is kept goes on.
-/
namespace SessionHost.Marker

/-- Where the occurrences of `marker` end. `place` counts the bytes passed over, and an occurrence may
start at `free` or later. -/
def occurrencesFrom (marker : Bytes) (place free : Nat) : Bytes → List Nat
  | [] => []
  | b :: rest =>
    if free ≤ place ∧ marker.isPrefixOf (b :: rest) then
      (place + marker.length) :: occurrencesFrom marker (place + 1) (place + marker.length) rest
    else occurrencesFrom marker (place + 1) free rest

/-- Where the leftmost non-overlapping occurrences of `marker` in `text` end. -/
def occurrences (marker text : Bytes) : List Nat := occurrencesFrom marker 0 0 text

/-- From where on the next occurrence may begin. -/
def freeFrom (marker : Bytes) (place free : Nat) (text : Bytes) : Nat :=
  (occurrencesFrom marker place free text).getLastD free

/-- Where the part of a text begins that is kept for the next chunk: behind the last occurrence, and
where a marker could still begin that the text does not hold as a whole. -/
def keptFrom (marker : Bytes) (place free : Nat) (text : Bytes) : Nat :=
  max place (max (place + text.length - (marker.length - 1)) (freeFrom marker place free text))

/-- The part of a text that is kept for the next chunk. -/
def kept (marker text : Bytes) : Bytes := text.drop (keptFrom marker 0 0 text)

variable {marker : Bytes}

/-! ## One pass -/

theorem occurrencesFrom_cons_of_match {place free : Nat} {b : UInt8} {rest : Bytes}
    (hf : free ≤ place) (hm : marker <+: b :: rest) :
    occurrencesFrom marker place free (b :: rest) =
      (place + marker.length) :: occurrencesFrom marker (place + 1) (place + marker.length) rest := by
  have hcond : free ≤ place ∧ marker.isPrefixOf (b :: rest) = true :=
    ⟨hf, List.isPrefixOf_iff_prefix.2 hm⟩
  simp only [occurrencesFrom, if_pos hcond]

theorem occurrencesFrom_cons_of_not_match {place free : Nat} {b : UInt8} {rest : Bytes}
    (h : ¬ (free ≤ place ∧ marker <+: b :: rest)) :
    occurrencesFrom marker place free (b :: rest) = occurrencesFrom marker (place + 1) free rest := by
  have hcond : ¬ (free ≤ place ∧ marker.isPrefixOf (b :: rest) = true) :=
    fun hc => h ⟨hc.1, List.isPrefixOf_iff_prefix.1 hc.2⟩
  simp only [occurrencesFrom, if_neg hcond]

/-- A scan gives the last occurrence, or what it began with. -/
theorem scanFrom_eq (place free : Nat) (last : Option Nat) (text : Bytes) :
    scanFrom marker place free last text =
      (occurrencesFrom marker place free text).getLast?.or last := by
  induction text generalizing place free last with
  | nil => rfl
  | cons b rest ih =>
    by_cases h : free ≤ place ∧ marker.isPrefixOf (b :: rest) = true
    · simp only [scanFrom, occurrencesFrom, if_pos h, ih, List.getLast?_cons]
      cases (occurrencesFrom marker (place + 1) (place + marker.length) rest).getLast? <;> rfl
    · simp only [scanFrom, occurrencesFrom, if_neg h, ih]

theorem scan_eq (text : Bytes) : scan marker text = (occurrences marker text).getLast? := by
  rw [scan, scanFrom_eq, Option.or_none]
  rfl

/-- Every occurrence lies within the text, and begins where it may. -/
theorem mem_occurrencesFrom_bounds {place free e : Nat} {text : Bytes}
    (h : e ∈ occurrencesFrom marker place free text) :
    place + marker.length ≤ e ∧ free + marker.length ≤ e ∧ e ≤ place + text.length := by
  induction text generalizing place free with
  | nil => cases h
  | cons b rest ih =>
    by_cases hm : free ≤ place ∧ marker <+: b :: rest
    · rw [occurrencesFrom_cons_of_match hm.1 hm.2] at h
      rcases List.mem_cons.1 h with rfl | h
      · have := hm.2.length_le
        exact ⟨Nat.le_refl _, Nat.add_le_add_right hm.1 _, by omega⟩
      · have := ih h
        simp only [List.length_cons]
        omega
    · rw [occurrencesFrom_cons_of_not_match hm] at h
      have := ih h
      simp only [List.length_cons]
      omega

/-! ## What is found -/

theorem prefix_of_mem_occurrencesFrom {place free e : Nat} {text : Bytes}
    (h : e ∈ occurrencesFrom marker place free text) :
    marker <+: text.drop (e - marker.length - place) := by
  induction text generalizing place free with
  | nil => cases h
  | cons b rest ih =>
    by_cases hm : free ≤ place ∧ marker <+: b :: rest
    · rw [occurrencesFrom_cons_of_match hm.1 hm.2] at h
      rcases List.mem_cons.1 h with rfl | h
      · have hzero : place + marker.length - marker.length - place = 0 := by omega
        rw [hzero]
        exact hm.2
      · have := mem_occurrencesFrom_bounds h
        have hsucc : e - marker.length - place = (e - marker.length - (place + 1)) + 1 := by omega
        rw [hsucc]
        exact ih h
    · rw [occurrencesFrom_cons_of_not_match hm] at h
      have := mem_occurrencesFrom_bounds h
      have hsucc : e - marker.length - place = (e - marker.length - (place + 1)) + 1 := by omega
      rw [hsucc]
      exact ih h

theorem pairwise_occurrencesFrom (place free : Nat) (text : Bytes) :
    (occurrencesFrom marker place free text).Pairwise fun e e' => e + marker.length ≤ e' := by
  induction text generalizing place free with
  | nil => exact List.Pairwise.nil
  | cons b rest ih =>
    by_cases hm : free ≤ place ∧ marker <+: b :: rest
    · rw [occurrencesFrom_cons_of_match hm.1 hm.2]
      exact List.Pairwise.cons (fun e he => (mem_occurrencesFrom_bounds he).2.1) (ih _ _)
    · rw [occurrencesFrom_cons_of_not_match hm]
      exact ih _ _

/-- Where the marker stands, an occurrence is found that begins there or before and ends behind it. -/
theorem exists_mem_occurrencesFrom (hm : marker ≠ []) (place free : Nat) {k : Nat} {text : Bytes}
    (hk : marker <+: text.drop k) (hf : free ≤ place + k) :
    ∃ e ∈ occurrencesFrom marker place free text, place + k < e ∧ e ≤ place + k + marker.length := by
  have hpos : 0 < marker.length := List.length_pos_iff.2 hm
  induction text generalizing place free k with
  | nil => exact absurd (List.prefix_nil.1 (by simpa using hk)) hm
  | cons b rest ih =>
    by_cases hmatch : free ≤ place ∧ marker <+: b :: rest
    · rw [occurrencesFrom_cons_of_match hmatch.1 hmatch.2]
      by_cases hbefore : place + k < place + marker.length
      · exact ⟨_, List.mem_cons_self .., hbefore, by omega⟩
      · obtain ⟨k, rfl⟩ : ∃ j, k = j + 1 := ⟨k - 1, by omega⟩
        obtain ⟨e, he, hlt, hle⟩ := ih (place + 1) (place + marker.length) hk (by omega)
        exact ⟨e, List.mem_cons_of_mem _ he, by omega, by omega⟩
    · rw [occurrencesFrom_cons_of_not_match hmatch]
      cases k with
      | zero => exact absurd ⟨hf, hk⟩ hmatch
      | succ k =>
        obtain ⟨e, he, hlt, hle⟩ := ih (place + 1) free hk (by omega)
        exact ⟨e, he, by omega, by omega⟩

/-- The occurrences that are found are the leftmost ones that do not overlap. -/
theorem occurrences_spec (hm : marker ≠ []) (text : Bytes) :
    (∀ e ∈ occurrences marker text, marker <+: text.drop (e - marker.length)) ∧
      (occurrences marker text).Pairwise (fun e e' => e + marker.length ≤ e') ∧
        ∀ k, marker <+: text.drop k →
          ∃ e ∈ occurrences marker text, k < e ∧ e ≤ k + marker.length := by
  refine ⟨fun e he => prefix_of_mem_occurrencesFrom he, pairwise_occurrencesFrom 0 0 text, ?_⟩
  intro k hk
  have h := exists_mem_occurrencesFrom hm 0 0 hk (Nat.zero_le (0 + k))
  rwa [Nat.zero_add] at h

/-! ## Where to go on -/

/-- A text that is shorter than the marker has no occurrence. -/
theorem occurrencesFrom_of_length_lt {place free : Nat} {text : Bytes}
    (h : text.length < marker.length) : occurrencesFrom marker place free text = [] := by
  refine List.eq_nil_iff_forall_not_mem.2 fun e he => ?_
  have := mem_occurrencesFrom_bounds he
  omega

theorem occurrencesFrom_skip (place free : Nat) (text : Bytes) :
    occurrencesFrom marker place free text =
      occurrencesFrom marker (max place free) (max place free) (text.drop (free - place)) := by
  induction text generalizing place free with
  | nil => simp [occurrencesFrom]
  | cons b rest ih =>
    by_cases hf : free ≤ place
    · rw [Nat.max_eq_left hf, Nat.sub_eq_zero_of_le hf, List.drop_zero]
      by_cases hm : marker <+: b :: rest
      · rw [occurrencesFrom_cons_of_match hf hm, occurrencesFrom_cons_of_match (Nat.le_refl _) hm]
      · have hskip : ∀ g, g ≤ place → occurrencesFrom marker (place + 1) g rest =
            occurrencesFrom marker (place + 1) (place + 1) rest := by
          intro g hg
          rw [ih, Nat.max_eq_left (by omega), Nat.sub_eq_zero_of_le (by omega), List.drop_zero]
        rw [occurrencesFrom_cons_of_not_match fun hc => hm hc.2,
          occurrencesFrom_cons_of_not_match fun hc => hm hc.2, hskip free hf,
          hskip place (Nat.le_refl _)]
    · have hstep : free - place = (free - (place + 1)) + 1 := by omega
      have hmax : max place free = max (place + 1) free := by omega
      rw [occurrencesFrom_cons_of_not_match fun hc => hf hc.1, ih, hstep, List.drop_succ_cons, hmax]

theorem occurrencesFrom_add (k place free : Nat) (text : Bytes) :
    occurrencesFrom marker (k + place) (k + free) text =
      (occurrencesFrom marker place free text).map (k + ·) := by
  induction text generalizing place free with
  | nil => rfl
  | cons b rest ih =>
    by_cases hm : free ≤ place ∧ marker <+: b :: rest
    · have hk : k + free ≤ k + place := by omega
      rw [occurrencesFrom_cons_of_match hk hm.2, occurrencesFrom_cons_of_match hm.1 hm.2,
        List.map_cons, ← ih, Nat.add_assoc, Nat.add_assoc]
    · have hk : ¬ (k + free ≤ k + place ∧ marker <+: b :: rest) := fun hc => hm ⟨by omega, hc.2⟩
      rw [occurrencesFrom_cons_of_not_match hk, occurrencesFrom_cons_of_not_match hm, ← ih,
        Nat.add_assoc]

/-! ## Reading on -/

theorem place_le_keptFrom (place free : Nat) (text : Bytes) :
    place ≤ keptFrom marker place free text := Nat.le_max_left ..

/-- A text of which all is kept holds no occurrence, nor a part of one that was found before. -/
theorem of_keptFrom_eq {place free : Nat} {text : Bytes} (hm : marker ≠ [])
    (h : keptFrom marker place free text = place) :
    occurrencesFrom marker place free text = [] ∧ free ≤ place := by
  have hpos : 0 < marker.length := List.length_pos_iff.2 hm
  have hnil : occurrencesFrom marker place free text = [] := by
    refine occurrencesFrom_of_length_lt ?_
    unfold keptFrom at h
    omega
  have hfree : freeFrom marker place free text = free := by rw [freeFrom, hnil]; rfl
  refine ⟨hnil, ?_⟩
  unfold keptFrom at h
  omega

theorem keptFrom_cons_of_match {place free : Nat} {b : UInt8} {rest : Bytes}
    (hm : marker ≠ []) (hf : free ≤ place) (hp : marker <+: b :: rest) :
    keptFrom marker place free (b :: rest) =
      keptFrom marker (place + 1) (place + marker.length) rest := by
  have hpos : 0 < marker.length := List.length_pos_iff.2 hm
  have hfree : freeFrom marker place free (b :: rest) =
      freeFrom marker (place + 1) (place + marker.length) rest := by
    rw [freeFrom, occurrencesFrom_cons_of_match hf hp, List.getLastD_cons]
    rfl
  -- what is free lies behind the occurrence at hand
  have hle : place + marker.length ≤ freeFrom marker (place + 1) (place + marker.length) rest := by
    rw [freeFrom, List.getLastD_eq_getLast?]
    cases hl : (occurrencesFrom marker (place + 1) (place + marker.length) rest).getLast? with
    | none => exact Nat.le_refl _
    | some e =>
      have hbounds := mem_occurrencesFrom_bounds (List.mem_of_getLast? hl)
      simp only [Option.getD_some]
      omega
  simp only [keptFrom, hfree, List.length_cons]
  omega

theorem keptFrom_cons_of_not_match {place free : Nat} {b : UInt8} {rest : Bytes}
    (hn : ¬ (free ≤ place ∧ marker <+: b :: rest))
    (hk : keptFrom marker place free (b :: rest) ≠ place) :
    keptFrom marker place free (b :: rest) = keptFrom marker (place + 1) free rest := by
  have hfree : freeFrom marker place free (b :: rest) = freeFrom marker (place + 1) free rest := by
    rw [freeFrom, occurrencesFrom_cons_of_not_match hn]
    rfl
  simp only [keptFrom, hfree, List.length_cons] at hk ⊢
  omega

/-- Reading on behind a text finds what was found in it, and then what is found behind the part that is
kept. -/
theorem occurrencesFrom_append (hm : marker ≠ []) (place free : Nat) (text more : Bytes) :
    occurrencesFrom marker place free (text ++ more) =
      occurrencesFrom marker place free text ++
        occurrencesFrom marker (keptFrom marker place free text) (keptFrom marker place free text)
          ((text ++ more).drop (keptFrom marker place free text - place)) := by
  induction text generalizing place free with
  | nil =>
    have hk : keptFrom marker place free [] = max place free := by
      simp only [keptFrom, freeFrom, occurrencesFrom, List.length_nil, List.getLastD_nil]
      omega
    have hd : max place free - place = free - place := by omega
    rw [hk, hd, List.nil_append]
    exact occurrencesFrom_skip place free more
  | cons b rest ih =>
    by_cases hk : keptFrom marker place free (b :: rest) = place
    · obtain ⟨hnil, hfree⟩ := of_keptFrom_eq hm hk
      rw [hnil, hk, List.nil_append, Nat.sub_self, List.drop_zero,
        occurrencesFrom_skip place free, Nat.max_eq_left hfree, Nat.sub_eq_zero_of_le hfree,
        List.drop_zero]
    · -- the part that is kept begins behind `b`, so that an occurrence at `b` is one in the text
      have hlt : place < keptFrom marker place free (b :: rest) :=
        Nat.lt_of_le_of_ne (place_le_keptFrom ..) (Ne.symm hk)
      have hdrop : keptFrom marker place free (b :: rest) - place =
          (keptFrom marker place free (b :: rest) - (place + 1)) + 1 := by omega
      rw [hdrop, List.cons_append, List.drop_succ_cons]
      by_cases hmatch : free ≤ place ∧ marker <+: b :: rest
      · have hlong : marker <+: b :: (rest ++ more) := hmatch.2.trans (List.prefix_append _ more)
        rw [occurrencesFrom_cons_of_match hmatch.1 hlong,
          occurrencesFrom_cons_of_match hmatch.1 hmatch.2, ih,
          keptFrom_cons_of_match hm hmatch.1 hmatch.2]
        rfl
      · have hnone : ¬ (free ≤ place ∧ marker <+: b :: (rest ++ more)) := by
          rintro ⟨hf, hp⟩
          have hshort : (b :: rest).length < marker.length := by
            refine Nat.lt_of_not_le fun hlen => ?_
            have hin := List.prefix_of_prefix_length_le hp (List.prefix_append (b :: rest) more)
              hlen
            exact hmatch ⟨hf, hin⟩
          have hfree : freeFrom marker place free (b :: rest) = free := by
            rw [freeFrom, occurrencesFrom_of_length_lt hshort]
            rfl
          unfold keptFrom at hk
          omega
        rw [occurrencesFrom_cons_of_not_match hnone, occurrencesFrom_cons_of_not_match hmatch, ih,
          keptFrom_cons_of_not_match hmatch hk]

theorem freeFrom_bounds (marker text : Bytes) : freeFrom marker 0 0 text ≤ text.length ∧
    (occurrences marker text ≠ [] → marker.length ≤ freeFrom marker 0 0 text) := by
  rw [freeFrom, List.getLastD_eq_getLast?]
  cases hl : (occurrencesFrom marker 0 0 text).getLast? with
  | none => exact ⟨Nat.zero_le _, fun hne => absurd (List.getLast?_eq_none_iff.1 hl) hne⟩
  | some e =>
    have hbounds := mem_occurrencesFrom_bounds (List.mem_of_getLast? hl)
    simp only [Option.getD_some]
    exact ⟨by omega, fun _ => by omega⟩

theorem keptFrom_le (text : Bytes) : keptFrom marker 0 0 text ≤ text.length := by
  have hfree : freeFrom marker 0 0 text ≤ text.length := (freeFrom_bounds marker text).1
  unfold keptFrom
  omega

theorem length_kept (text : Bytes) :
    (kept marker text).length = text.length - keptFrom marker 0 0 text := by
  rw [kept, List.length_drop]

/-- A longer text has the same occurrences, and then those behind what was kept. -/
theorem occurrences_append (hm : marker ≠ []) (text more : Bytes) :
    occurrences marker (text ++ more) = occurrences marker text ++
      (occurrences marker (kept marker text ++ more)).map (keptFrom marker 0 0 text + ·) := by
  rw [occurrences, occurrencesFrom_append hm, Nat.sub_zero,
    List.drop_append_of_le_length (keptFrom_le text)]
  exact congrArg _ (occurrencesFrom_add (keptFrom marker 0 0 text) 0 0 _)

theorem freeFrom_append_of_eq_nil (hm : marker ≠ []) {text more : Bytes}
    (h : occurrences marker (kept marker text ++ more) = []) :
    freeFrom marker 0 0 (text ++ more) = freeFrom marker 0 0 text := by
  have happ := occurrences_append hm text more
  rw [h, List.map_nil, List.append_nil] at happ
  exact congrArg (List.getLastD · 0) happ

theorem freeFrom_append_of_ne_nil (hm : marker ≠ []) {text more : Bytes}
    (h : occurrences marker (kept marker text ++ more) ≠ []) :
    freeFrom marker 0 0 (text ++ more) =
      keptFrom marker 0 0 text + freeFrom marker 0 0 (kept marker text ++ more) := by
  have happ := occurrences_append hm text more
  obtain ⟨es, e, hes⟩ : ∃ es e, occurrences marker (kept marker text ++ more) = es ++ [e] :=
    ⟨_, _, (List.dropLast_concat_getLast h).symm⟩
  rw [hes, List.map_append, ← List.append_assoc] at happ
  have hwhole : freeFrom marker 0 0 (text ++ more) = keptFrom marker 0 0 text + e := by
    refine (congrArg (List.getLastD · 0) happ).trans ?_
    simp
  have hpart : freeFrom marker 0 0 (kept marker text ++ more) = e := by
    refine (congrArg (List.getLastD · 0) hes).trans ?_
    simp
  rw [hwhole, hpart]

theorem keptFrom_append (hm : marker ≠ []) (text more : Bytes) :
    keptFrom marker 0 0 (text ++ more) =
      keptFrom marker 0 0 text + keptFrom marker 0 0 (kept marker text ++ more) := by
  have hpos : 0 < marker.length := List.length_pos_iff.2 hm
  have hwindow : (kept marker text ++ more).length =
      text.length - keptFrom marker 0 0 text + more.length := by
    rw [List.length_append, length_kept]
  have hfirst := freeFrom_bounds marker text
  have hbounds := freeFrom_bounds marker (kept marker text ++ more)
  by_cases h : occurrences marker (kept marker text ++ more) = []
  · have hnone : freeFrom marker 0 0 (kept marker text ++ more) = 0 := congrArg (List.getLastD · 0) h
    have hsame := freeFrom_append_of_eq_nil hm h
    simp only [keptFrom, List.length_append] at hwindow ⊢
    omega
  · have hlast := freeFrom_append_of_ne_nil hm h
    have hlong := hbounds.2 h
    simp only [keptFrom, List.length_append] at hwindow hlast ⊢
    omega

/-- What is kept of a longer text is what is kept of the part that was kept, read on. -/
theorem kept_append (hm : marker ≠ []) (text more : Bytes) :
    kept marker (text ++ more) = kept marker (kept marker text ++ more) := by
  rw [kept, keptFrom_append hm, ← List.drop_drop, List.drop_append_of_le_length (keptFrom_le text)]
  rfl

/-! ## Chunks -/

/-- How often `marker` occurs in `text`, where no two occurrences overlap. -/
def count (marker text : Bytes) : Nat := (occurrences marker text).length

@[simp] theorem count_nil : count marker [] = 0 := rfl

theorem count_append (hm : marker ≠ []) (text more : Bytes) :
    count marker (text ++ more) = count marker text + count marker (kept marker text ++ more) := by
  rw [count, occurrences_append hm, List.length_append, List.length_map]
  rfl

theorem count_le_append (hm : marker ≠ []) (text more : Bytes) :
    count marker text ≤ count marker (text ++ more) := by
  rw [count_append hm]
  exact Nat.le_add_right ..

/-- A reader that has kept what it should says of a chunk whether there are more occurrences now, and
keeps again what it should. -/
theorem advance_eq (hm : marker ≠ []) (text chunk : Bytes) :
    advance marker (kept marker text) chunk =
      (decide (count marker text < count marker (text ++ chunk)), kept marker (text ++ chunk)) := by
  have hseen : (scan marker (kept marker text ++ chunk)).isSome =
      decide (count marker text < count marker (text ++ chunk)) := by
    have hmore : 0 < count marker (kept marker text ++ chunk) ↔
        occurrences marker (kept marker text ++ chunk) ≠ [] := List.length_pos_iff
    rw [Bool.eq_iff_iff, decide_eq_true_iff, count_append hm, scan_eq, List.getLast?_isSome, ← hmore]
    omega
  have hstart : max ((kept marker text ++ chunk).length - (marker.length - 1))
      ((scan marker (kept marker text ++ chunk)).getD 0) =
        keptFrom marker 0 0 (kept marker text ++ chunk) := by
    rw [scan_eq, ← List.getLastD_eq_getLast?]
    simp only [keptFrom, Nat.zero_add, Nat.zero_max]
    rfl
  have hkept : kept marker (kept marker text ++ chunk) =
      (kept marker text ++ chunk).drop (keptFrom marker 0 0 (kept marker text ++ chunk)) := rfl
  rw [kept_append hm, hkept, ← hstart, ← hseen]
  rfl

end SessionHost.Marker
