import SessionHost.Proofs.Output.Occurrences

/-!
# Searching a window again and again

A reader may look for a marker by trying the places of its window one after the other, cut off what
lies before the end of the occurrence that it has found, and search the rest in the same way. Each cut
is made at a place that has been computed, and a cut behind the end of the window is none at all. So
the cuts are partial here: `Marker.cut?` gives nothing for a place that the text does not have.

* `sweep?_eq`: the search makes only cuts that there are, and stops behind the last occurrence;
* `advance?_eq`: with all cuts made, a chunk is read as `Marker.advance` reads it;
* `isTail_kept`: what is kept is the longest tail that is shorter than the marker and begins behind the
  last occurrence.
-/
namespace SessionHost.Marker

variable {marker : Bytes}

/-! ## Trying one place after the other -/

/-- The part of a text from a place on, if the text has that place. -/
def cut? (text : Bytes) (place : Nat) : Option Bytes :=
  if place ≤ text.length then some (text.drop place) else none

/-- All runs of `n` bytes that stand next to each other in a text, in their order. -/
def windows (n : Nat) (text : Bytes) : List Bytes :=
  (List.range (text.length + 1 - n)).map fun k => (text.drop k).take n

/-- The first place of a text at which `marker` stands.
mirrors session/controller:116-121 -/
def find? (marker text : Bytes) : Option Nat :=
  if text.length < marker.length then none
  else (windows marker.length text).findIdx? (· == marker)

theorem cut?_of_le {text : Bytes} {place : Nat} (h : place ≤ text.length) :
    cut? text place = some (text.drop place) := if_pos h

theorem length_windows (n : Nat) (text : Bytes) :
    (windows n text).length = text.length + 1 - n := by
  simp [windows]

theorem getElem_windows {n k : Nat} {text : Bytes} (h : k < (windows n text).length) :
    (windows n text)[k] = (text.drop k).take n := by
  simp [windows]

/-- At a window that is the marker, the marker stands in the text. -/
theorem prefix_drop_iff {k : Nat} {text : Bytes} :
    marker <+: text.drop k ↔ (text.drop k).take marker.length = marker := by
  rw [List.prefix_iff_eq_take, eq_comm]

theorem add_length_le_of_prefix {k : Nat} {text : Bytes} (hm : marker ≠ [])
    (h : marker <+: text.drop k) : k + marker.length ≤ text.length := by
  have hpos : 0 < marker.length := List.length_pos_iff.2 hm
  have hle := h.length_le
  rw [List.length_drop] at hle
  omega

theorem find?_eq_none {text : Bytes} (hm : marker ≠ []) (h : find? marker text = none) (k : Nat) :
    ¬ marker <+: text.drop k := by
  intro hk
  have hroom := add_length_le_of_prefix hm hk
  rw [find?, if_neg (by omega), List.findIdx?_eq_none_iff] at h
  have hlen : k < (windows marker.length text).length := by
    rw [length_windows]
    omega
  have hno := h _ (List.getElem_mem hlen)
  rw [getElem_windows, prefix_drop_iff.1 hk] at hno
  simp at hno

/-- What is found is a place where the marker stands, and the first such place. -/
theorem find?_eq_some {text : Bytes} {place : Nat} (h : find? marker text = some place) :
    marker <+: text.drop place ∧ ∀ k < place, ¬ marker <+: text.drop k := by
  unfold find? at h
  split at h
  · cases h
  · obtain ⟨hlen, hstands, hfirst⟩ := List.findIdx?_eq_some_iff_getElem.1 h
    rw [getElem_windows] at hstands
    refine ⟨prefix_drop_iff.2 (by simpa using hstands), fun k hk hstands => ?_⟩
    have hno := hfirst k hk
    rw [getElem_windows, prefix_drop_iff.1 hstands] at hno
    simp at hno

/-! ## The first occurrence and the rest -/

/-- Where the marker does not stand anywhere, it does not occur. -/
theorem occurrences_eq_nil {text : Bytes} (h : ∀ k, ¬ marker <+: text.drop k) :
    occurrences marker text = [] := by
  refine List.eq_nil_iff_forall_not_mem.2 fun e he => ?_
  have hstands := prefix_of_mem_occurrencesFrom he
  exact h _ hstands

/-- The first place where the marker stands is its first occurrence, and the next is looked for
behind it. -/
theorem occurrencesFrom_of_first (hm : marker ≠ []) (place : Nat) {k : Nat} {text : Bytes}
    (hk : marker <+: text.drop k) (hfirst : ∀ j < k, ¬ marker <+: text.drop j) :
    occurrencesFrom marker place place text =
      (place + k + marker.length) ::
        occurrencesFrom marker (place + k + marker.length) (place + k + marker.length)
          (text.drop (k + marker.length)) := by
  have hpos : 0 < marker.length := List.length_pos_iff.2 hm
  induction text generalizing place k with
  | nil => exact absurd (List.prefix_nil.1 (by simpa using hk)) hm
  | cons b rest ih =>
    cases k with
    | zero =>
      obtain ⟨n, hn⟩ : ∃ n, marker.length = n + 1 := ⟨marker.length - 1, by omega⟩
      have hmax : max (place + 1) (place + marker.length) = place + 0 + marker.length := by omega
      have hdrop : place + marker.length - (place + 1) = n := by omega
      rw [occurrencesFrom_cons_of_match (Nat.le_refl _) hk, occurrencesFrom_skip, hmax, hdrop,
        Nat.zero_add, hn, List.drop_succ_cons]
      rfl
    | succ k =>
      have hno : ¬ (place ≤ place ∧ marker <+: b :: rest) := fun h => hfirst 0 (by omega) h.2
      have hmax : max (place + 1) place = place + 1 := by omega
      have hdrop : place - (place + 1) = 0 := by omega
      have hrest : ∀ j < k, ¬ marker <+: rest.drop j := fun j hj => hfirst (j + 1) (by omega)
      have hplace : place + (k + 1) + marker.length = place + 1 + k + marker.length := by omega
      have hskip : k + 1 + marker.length = k + marker.length + 1 := by omega
      rw [occurrencesFrom_cons_of_not_match hno, occurrencesFrom_skip, hmax, hdrop, List.drop_zero,
        ih (place + 1) hk hrest, hplace, hskip, List.drop_succ_cons]

theorem occurrences_of_first (hm : marker ≠ []) {k : Nat} {text : Bytes}
    (hk : marker <+: text.drop k) (hfirst : ∀ j < k, ¬ marker <+: text.drop j) :
    occurrences marker text = (k + marker.length) ::
      (occurrences marker (text.drop (k + marker.length))).map (k + marker.length + ·) := by
  have h := occurrencesFrom_of_first hm 0 hk hfirst
  rw [Nat.zero_add] at h
  rw [occurrences, h]
  exact congrArg _ (occurrencesFrom_add (k + marker.length) 0 0 _)

/-! ## The search -/

/-- Searches a window from `consumed` on as long as an occurrence is found: whether any was, and where
the last one ends.
mirrors session/controller:76-81 -/
def sweep? (marker : Bytes) (hm : marker ≠ []) (window : Bytes) (consumed : Nat) (found : Bool) :
    Option (Bool × Nat) :=
  match _hc : cut? window consumed with
  | none => none
  | some rest =>
    match _hf : find? marker rest with
    | none => some (found, consumed)
    | some place => sweep? marker hm window (consumed + (place + marker.length)) true
termination_by window.length - consumed
decreasing_by
  have hpos : 0 < marker.length := List.length_pos_iff.2 hm
  have hroom := add_length_le_of_prefix hm (find?_eq_some _hf).1
  unfold cut? at _hc
  split at _hc
  · obtain rfl := Option.some.inj _hc
    rw [List.length_drop] at hroom
    omega
  · cases _hc

/-- Reads `chunk` behind `tail` by searching, with all cuts made.
mirrors session/controller:73-85 -/
def advance? (marker : Bytes) (hm : marker ≠ []) (tail chunk : Bytes) : Option (Bool × Bytes) := do
  let window := tail ++ chunk
  let (found, consumed) ← sweep? marker hm window 0 false
  let keep ← if 1 ≤ marker.length then some (marker.length - 1) else none
  let tail ← cut? window (max (window.length - keep) consumed)
  return (found, tail)

/-- From a place of the window on, the search finds whether the rest holds an occurrence and where the
last of them ends. -/
theorem sweep?_of_le (hm : marker ≠ []) {window : Bytes} {consumed : Nat} (found : Bool)
    (h : consumed ≤ window.length) :
    sweep? marker hm window consumed found =
      some (found || !(occurrences marker (window.drop consumed)).isEmpty,
        consumed + (occurrences marker (window.drop consumed)).getLastD 0) := by
  fun_induction sweep? marker hm window consumed found with
  | case1 consumed found hc =>
    rw [cut?_of_le h] at hc
    cases hc
  | case2 consumed found rest hc hf =>
    rw [cut?_of_le h] at hc
    obtain rfl := Option.some.inj hc
    rw [occurrences_eq_nil (find?_eq_none hm hf)]
    simp
  | case3 consumed found rest hc place hf ih =>
    rw [cut?_of_le h] at hc
    obtain rfl := Option.some.inj hc
    obtain ⟨hstands, hfirst⟩ := find?_eq_some hf
    have hroom := add_length_le_of_prefix hm hstands
    rw [List.length_drop] at hroom
    rw [ih (by omega), occurrences_of_first hm hstands hfirst, List.drop_drop]
    generalize occurrences marker (window.drop (consumed + (place + marker.length))) = rest
    rcases List.eq_nil_or_concat rest with rfl | ⟨es, e, rfl⟩
    · simp
    · have hlast : (((place + marker.length) :: (es ++ [e]).map (place + marker.length + ·)).getLastD
          0) = place + marker.length + e := by
        rw [List.map_append, ← List.cons_append]
        exact List.getLastD_concat
      rw [List.concat_eq_append, hlast, List.getLastD_concat]
      simp [Nat.add_assoc]

theorem sweep?_eq (hm : marker ≠ []) (window : Bytes) :
    sweep? marker hm window 0 false =
      some ((scan marker window).isSome, (scan marker window).getD 0) := by
  rw [sweep?_of_le hm false (Nat.zero_le _), scan_eq, List.drop_zero, Nat.zero_add,
    List.getLastD_eq_getLast?]
  cases occurrences marker window <;> simp

theorem scan_getD_le (marker window : Bytes) : (scan marker window).getD 0 ≤ window.length := by
  rw [scan_eq, ← List.getLastD_eq_getLast?]
  exact (freeFrom_bounds marker window).1

/-- All cuts can be made, and they give what `advance` gives. -/
theorem advance?_eq (hm : marker ≠ []) (tail chunk : Bytes) :
    advance? marker hm tail chunk = some (advance marker tail chunk) := by
  have hpos : 0 < marker.length := List.length_pos_iff.2 hm
  have hscan := scan_getD_le marker (tail ++ chunk)
  have hcut : cut? (tail ++ chunk) (max ((tail ++ chunk).length - (marker.length - 1))
      ((scan marker (tail ++ chunk)).getD 0)) = some ((advance marker tail chunk).2) :=
    cut?_of_le (by omega)
  simp only [advance?, sweep?_eq, if_pos (show 1 ≤ marker.length from hpos), Option.bind_eq_bind,
    Option.bind_some, hcut]
  rfl

/-! ## What ends in a chunk -/

/-- An occurrence ends behind place `start` and not behind place `stop`. -/
def EndsWithin (marker text : Bytes) (start stop : Nat) : Prop :=
  ∃ e ∈ occurrences marker text, start < e ∧ e ≤ stop

instance (marker text : Bytes) (start stop : Nat) : Decidable (EndsWithin marker text start stop) :=
  inferInstanceAs (Decidable (∃ e ∈ occurrences marker text, start < e ∧ e ≤ stop))

/-- What is found behind the part of a text that is kept ends behind the text. -/
theorem lt_of_mem_later (hm : marker ≠ []) {text more : Bytes} {e : Nat}
    (h : e ∈ (occurrences marker (kept marker text ++ more)).map (keptFrom marker 0 0 text + ·)) :
    text.length < e := by
  have hpos : 0 < marker.length := List.length_pos_iff.2 hm
  obtain ⟨e, he, rfl⟩ := List.mem_map.1 h
  have hbounds := mem_occurrencesFrom_bounds he
  unfold keptFrom
  omega

/-- The occurrences of a longer text that do not end behind the text are those of the text. -/
theorem mem_occurrences_append (hm : marker ≠ []) {text more : Bytes} {e : Nat} :
    e ∈ occurrences marker (text ++ more) ∧ e ≤ text.length ↔ e ∈ occurrences marker text := by
  rw [occurrences_append hm, List.mem_append]
  constructor
  · rintro ⟨h | h, hle⟩
    · exact h
    · have := lt_of_mem_later hm h
      omega
  · intro h
    exact ⟨Or.inl h, by have := mem_occurrencesFrom_bounds h; omega⟩

/-- Whatever follows a chunk, what ends in it is what there is more of with it. -/
theorem endsWithin_iff (hm : marker ≠ []) (text chunk later : Bytes) :
    EndsWithin marker (text ++ chunk ++ later) text.length (text ++ chunk).length ↔
      count marker text < count marker (text ++ chunk) := by
  rw [count_append hm]
  constructor
  · rintro ⟨e, he, hlt, hle⟩
    have hin := (mem_occurrences_append hm).1 ⟨he, hle⟩
    rw [occurrences_append hm, List.mem_append] at hin
    rcases hin with hin | hin
    · have := mem_occurrencesFrom_bounds hin
      omega
    · have hpos := List.length_pos_of_mem hin
      rw [List.length_map] at hpos
      exact Nat.lt_add_of_pos_right hpos
  · intro h
    have hpos : 0 < (occurrences marker (kept marker text ++ chunk)).length :=
      Nat.pos_of_lt_add_right h
    obtain ⟨e, he⟩ := List.exists_mem_of_length_pos hpos
    have hlater := List.mem_map_of_mem (f := (keptFrom marker 0 0 text + ·)) he
    have hlt := lt_of_mem_later hm hlater
    have hin : keptFrom marker 0 0 text + e ∈ occurrences marker (text ++ chunk) := by
      rw [occurrences_append hm]
      exact List.mem_append_right _ hlater
    have hlong : keptFrom marker 0 0 text + e ∈ occurrences marker (text ++ chunk ++ later) ∧
        keptFrom marker 0 0 text + e ≤ (text ++ chunk).length := (mem_occurrences_append hm).2 hin
    exact ⟨_, hlong.1, hlt, hlong.2⟩

/-! ## What is kept -/

/-- `tail` is the longest end of `text` that is shorter than the marker and begins behind all its
occurrences. -/
structure IsTail (marker text tail : Bytes) : Prop where
  suffix : tail <:+ text
  short : tail.length < marker.length
  behind : ∀ e ∈ occurrences marker text, e + tail.length ≤ text.length
  longest : ∀ other, other <:+ text → other.length < marker.length →
    (∀ e ∈ occurrences marker text, e + other.length ≤ text.length) → other <:+ tail

theorem freeFrom_eq_or_mem (marker text : Bytes) :
    freeFrom marker 0 0 text = 0 ∨ freeFrom marker 0 0 text ∈ occurrences marker text := by
  rw [freeFrom, List.getLastD_eq_getLast?]
  cases hl : (occurrencesFrom marker 0 0 text).getLast? with
  | none => exact Or.inl rfl
  | some e => exact Or.inr (List.mem_of_getLast? hl)

theorem le_freeFrom {text : Bytes} {e : Nat} (h : e ∈ occurrences marker text) :
    e ≤ freeFrom marker 0 0 text := by
  have hpairs : (occurrencesFrom marker 0 0 text).Pairwise fun e e' => e + marker.length ≤ e' :=
    pairwise_occurrencesFrom 0 0 text
  unfold freeFrom
  unfold occurrences at h
  rcases List.eq_nil_or_concat (occurrencesFrom marker 0 0 text) with hnil | ⟨es, last, hes⟩
  · rw [hnil] at h
    cases h
  · rw [hes, List.concat_eq_append] at h hpairs ⊢
    rw [List.getLastD_concat]
    rcases List.mem_append.1 h with h | h
    · have := (List.pairwise_append.1 hpairs).2.2 e h last (List.mem_singleton.2 rfl)
      omega
    · exact Nat.le_of_eq (List.mem_singleton.1 h)

theorem isTail_kept (hm : marker ≠ []) (text : Bytes) : IsTail marker text (kept marker text) := by
  have hpos : 0 < marker.length := List.length_pos_iff.2 hm
  have hlen : (kept marker text).length = text.length - keptFrom marker 0 0 text := length_kept text
  have hle : keptFrom marker 0 0 text ≤ text.length := keptFrom_le text
  refine ⟨List.drop_suffix .., ?short, ?behind, ?longest⟩
  case short =>
    unfold keptFrom at hlen
    omega
  case behind =>
    intro e he
    have hlast := le_freeFrom he
    unfold keptFrom at hlen hle
    omega
  case longest =>
    intro other hsuffix hshort hbehind
    have hroom := hsuffix.length_le
    have hfree : freeFrom marker 0 0 text + other.length ≤ text.length := by
      rcases freeFrom_eq_or_mem marker text with hzero | hmem
      · omega
      · exact hbehind _ hmem
    refine List.suffix_of_suffix_length_le hsuffix (List.drop_suffix ..) ?_
    unfold keptFrom at hlen
    omega

end SessionHost.Marker
