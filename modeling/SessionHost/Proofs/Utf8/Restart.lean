import SessionHost.Utf8.Boundary
import SessionHost.Utf8.Decoder

/-!
# Where a decoder may start anew

A stream may be cut between `p` and `r`, and the two pieces decoded on their own, if the decoder is
between two sequences behind `p`, or if `r` does not begin with a continuation byte: then whatever `p`
has left open is malformed with or without `r` (`Restarts`, `lossy_append_of_restarts`).

The boundary rule cuts at such places only (`completeLength_cut`). The invariant is how many
continuation bytes the decoder can still take (`State.wants`): every one of them uses one up, whether
it fits or not, so that as many as the first byte has announced always leave the decoder ready.
-/
namespace SessionHost.Utf8

/-! ## Reading as a state and a list of symbols -/

def after (st : State) (bs : Bytes) : State := bs.foldl (fun st b => (step st b).1) st

/-- The symbols that `bs` completes, in their order. -/
def emitted (st : State) : Bytes → List Symbol
  | [] => []
  | b :: bs => (step st b).2 ++ emitted (step st b).1 bs

theorem run_eq (st : State) (acc : List Symbol) (bs : Bytes) :
    run (st, acc) bs = (after st bs, (emitted st bs).reverse ++ acc) := by
  induction bs generalizing st acc with
  | nil => rfl
  | cons b bs ih =>
    have h : run (st, acc) (b :: bs) = run ((step st b).1, (step st b).2.reverse ++ acc) bs := rfl
    rw [h, ih]
    simp [after, emitted]

theorem symbols_eq (bs : Bytes) :
    symbols bs = emitted .ready bs ++ flush (after .ready bs) := by
  simp [symbols, run_eq]

theorem after_append (st : State) (p r : Bytes) : after st (p ++ r) = after (after st p) r :=
  List.foldl_append

theorem emitted_append (st : State) (p r : Bytes) :
    emitted st (p ++ r) = emitted st p ++ emitted (after st p) r := by
  induction p generalizing st with
  | nil => rfl
  | cons b p ih =>
    simp only [List.cons_append, emitted, ih, List.append_assoc]
    rfl

/-! ## States that occur -/

/-- A state that waits for continuation bytes only, and for at most three. -/
def State.Sound : State → Prop
  | .ready => True
  | .inside lo hi more _ => 0x80 ≤ lo ∧ hi ≤ 0xBF ∧ more ≤ 2

/-- How many continuation bytes a state can still take. -/
def State.wants : State → Nat
  | .ready => 0
  | .inside _ _ more _ => more + 1

theorem State.wants_eq_zero {st : State} : st.wants = 0 ↔ st = .ready := by
  cases st <;> simp [wants]

theorem State.ready_sound : State.ready.Sound := trivial

theorem State.Sound.wants_le {st : State} (h : st.Sound) : st.wants ≤ 3 := by
  cases st with
  | ready => exact Nat.zero_le 3
  | inside lo hi more code =>
    have := h.2.2
    simp only [wants]; omega

theorem isContinuation_iff (b : UInt8) : isContinuation b = true ↔ 0x80 ≤ b ∧ b ≤ 0xBF := by
  have key : ∀ n < 256, isContinuation (UInt8.ofNat n) = true ↔
      0x80 ≤ UInt8.ofNat n ∧ UInt8.ofNat n ≤ 0xBF := by decide +kernel
  simpa using key b.toNat b.toNat_lt

theorem isContinuation_eq_false_iff (b : UInt8) :
    isContinuation b = false ↔ b < 0x80 ∨ 0xBF < b := by
  rw [← Bool.not_eq_true, isContinuation_iff, Decidable.not_and_iff_not_or_not, UInt8.not_le,
    UInt8.not_le]

theorem lead_sound (b : UInt8) : (lead b).1.Sound := by
  unfold lead
  repeat' split
  all_goals simp [State.Sound]

theorem step_sound {st : State} (h : st.Sound) (b : UInt8) : (step st b).1.Sound := by
  cases st with
  | ready => exact lead_sound b
  | inside lo hi more code =>
    simp only [step]
    split
    · cases more with
      | zero => trivial
      | succ more =>
        have := h.2.2
        exact ⟨by decide, by decide, by omega⟩
    · exact lead_sound b

theorem after_sound {st : State} (h : st.Sound) (bs : Bytes) : (after st bs).Sound := by
  induction bs generalizing st with
  | nil => exact h
  | cons b bs ih => exact ih (step_sound h b)

/-! ## Continuation bytes, and all others -/

/-- A byte that continues nothing ends what is open and is read as a first byte. -/
theorem step_of_not_continuation {st : State} (h : st.Sound) {b : UInt8}
    (hb : isContinuation b = false) : step st b = ((lead b).1, flush st ++ (lead b).2) := by
  cases st with
  | ready => rfl
  | inside lo hi more code =>
    obtain ⟨hlo, hhi, -⟩ := h
    have out : ¬ (lo ≤ b ∧ b ≤ hi) := by
      rintro ⟨h1, h2⟩
      rcases (isContinuation_eq_false_iff b).1 hb with hb | hb
      · exact absurd (UInt8.le_trans hlo h1) (UInt8.not_le.2 hb)
      · exact absurd (UInt8.le_trans h2 hhi) (UInt8.not_le.2 hb)
    simp only [step, if_neg out, flush]
    rfl

theorem lead_of_continuation {b : UInt8} (hb : isContinuation b = true) :
    (lead b).1 = .ready := by
  obtain ⟨h1, h2⟩ := (isContinuation_iff b).1 hb
  have h3 : b < 0xC2 := UInt8.lt_of_le_of_lt h2 (by decide)
  unfold lead
  rw [if_neg (UInt8.not_lt.2 h1), if_pos h3]

theorem wants_step_of_continuation (st : State) {b : UInt8} (hb : isContinuation b = true) :
    (step st b).1.wants ≤ st.wants - 1 := by
  cases st with
  | ready => simp [step, lead_of_continuation hb, State.wants]
  | inside lo hi more code =>
    simp only [step]
    split
    · cases more <;> simp [State.wants]
    · simp [lead_of_continuation hb, State.wants]

theorem wants_after_of_continuation (st : State) {bs : Bytes}
    (hbs : ∀ b ∈ bs, isContinuation b = true) : (after st bs).wants ≤ st.wants - bs.length := by
  induction bs generalizing st with
  | nil => exact Nat.le_refl _
  | cons b bs ih =>
    have h1 := wants_step_of_continuation st (hbs b (List.mem_cons_self ..))
    have h2 := ih (step st b).1 fun c hc => hbs c (List.mem_cons_of_mem _ hc)
    simp only [List.length_cons]
    change (after (step st b).1 bs).wants ≤ _
    omega

/-- As many continuation bytes as a state can take leave the decoder ready. -/
theorem after_eq_ready {st : State} {bs : Bytes} (hbs : ∀ b ∈ bs, isContinuation b = true)
    (hw : st.wants ≤ bs.length) : after st bs = .ready := by
  have := wants_after_of_continuation st hbs
  exact State.wants_eq_zero.1 (by omega)

theorem wants_lead_lt (b : UInt8) : (lead b).1.wants < announcedWidth b := by
  have key : ∀ n < 256, (lead (UInt8.ofNat n)).1.wants < announcedWidth (UInt8.ofNat n) := by
    decide +kernel
  simpa using key b.toNat b.toNat_lt

/-! ## Cutting a stream -/

/-- A decoder that stands behind `p` may be started anew for `r`. -/
def Restarts (p r : Bytes) : Prop :=
  after .ready p = .ready ∨ ∀ b ∈ r.head?, isContinuation b = false

/-- A decoder that starts anew at `b` stands behind it where it would stand without `p`. -/
theorem after_append_cons_of_restarts {p r : Bytes} {b : UInt8} (h : Restarts p (b :: r)) :
    after .ready (p ++ b :: r) = after .ready (b :: r) := by
  rw [after_append]
  rcases h with h | h
  · rw [h]
  · have hst := step_of_not_continuation (after_sound State.ready_sound p) (h b rfl)
    change after (step _ b).1 r = after (step .ready b).1 r
    rw [hst]
    rfl

theorem symbols_append_of_restarts {p r : Bytes} (h : Restarts p r) :
    symbols (p ++ r) = symbols p ++ symbols r := by
  simp only [symbols_eq, emitted_append, after_append]
  rcases h with h | h
  · rw [h]; simp [flush]
  · cases r with
    | nil => simp [emitted, after, flush]
    | cons b r =>
      have hst := step_of_not_continuation (after_sound State.ready_sound p)
        (h b (by simp))
      have hready : step .ready b = lead b := rfl
      simp only [emitted, after, List.foldl_cons] at hst ⊢
      rw [hst, hready]
      simp [List.append_assoc]

/-- Two pieces that are cut where the decoder may start anew decode to the text of the whole. -/
theorem lossy_append_of_restarts {p r : Bytes} (h : Restarts p r) :
    lossy (p ++ r) = lossy p ++ lossy r := by
  rw [lossy, symbols_append_of_restarts h, List.map_append, String.ofList_append]
  rfl

/-! ## The boundary rule -/

/-- Nothing is held back: the bytes passed over continue what the rest has begun, or there are too
many of them, and the decoder is ready either way. -/
theorem after_of_heldBack_eq_zero (reach back : Nat) (rest passed : Bytes)
    (hb : passed.length = back) (hr : reach + back = 4)
    (hp : ∀ b ∈ passed, isContinuation b = true) (h : heldBack reach back rest = 0) :
    after .ready (rest.reverse ++ passed) = .ready := by
  induction rest generalizing reach back passed with
  | nil => exact after_eq_ready hp (Nat.zero_le _)
  | cons b rest ih =>
    cases reach with
    | zero =>
      -- four continuation bytes are more than any sequence takes
      rw [after_append]
      have := (after_sound State.ready_sound (b :: rest).reverse).wants_le
      exact after_eq_ready hp (by omega)
    | succ reach =>
      simp only [heldBack] at h
      rw [List.reverse_cons, List.append_assoc, List.singleton_append]
      split at h
      · rename_i hc
        refine ih reach (back + 1) (b :: passed) (by simp [hb]) (by omega) ?_ h
        intro c hmem
        rcases List.mem_cons.1 hmem with rfl | hmem
        · exact hc
        · exact hp c hmem
      · rename_i hc
        split at h
        · omega
        · rename_i hw
          have hst := step_of_not_continuation (after_sound State.ready_sound rest.reverse)
            (Bool.eq_false_iff.2 hc)
          have hlead := wants_lead_lt b
          rw [after_append, show after _ (b :: passed) = after (step _ b).1 passed from rfl, hst]
          exact after_eq_ready hp (by simp only; omega)

/-- What is held back begins with a byte that continues nothing. -/
theorem heldBack_spec (reach back : Nat) (rest : Bytes) (h : heldBack reach back rest ≠ 0) :
    ∃ k, heldBack reach back rest = back + k + 1 ∧
      ∃ b, rest[k]? = some b ∧ isContinuation b = false := by
  induction rest generalizing reach back with
  | nil => simp [heldBack] at h
  | cons b rest ih =>
    cases reach with
    | zero => simp [heldBack] at h
    | succ reach =>
      simp only [heldBack] at h ⊢
      split
      · rename_i hc
        rw [if_pos hc] at h
        obtain ⟨k, hk, c, hget, hnc⟩ := ih reach (back + 1) h
        exact ⟨k + 1, by omega, c, by simpa using hget, hnc⟩
      · rename_i hc
        rw [if_neg hc] at h
        split
        · exact ⟨0, rfl, b, rfl, Bool.eq_false_iff.2 hc⟩
        · rename_i hw
          rw [if_neg hw] at h
          exact absurd rfl h

/-- The rule cuts behind the last byte, with the decoder ready, or before a byte that continues
nothing. -/
theorem completeLength_cut (bs : Bytes) :
    (completeLength bs = bs.length ∧ after .ready bs = .ready) ∨
      ∃ b, bs[completeLength bs]? = some b ∧ isContinuation b = false := by
  unfold completeLength
  by_cases h : heldBack 4 0 bs.reverse = 0
  · left
    refine ⟨by omega, ?_⟩
    simpa using after_of_heldBack_eq_zero 4 0 bs.reverse [] rfl rfl (by simp) h
  · right
    obtain ⟨k, hk, b, hget, hnc⟩ := heldBack_spec 4 0 bs.reverse h
    have hlt : k < bs.length := by
      have := (List.getElem?_eq_some_iff.1 hget).1
      simpa using this
    have hplace : bs.length - (0 + k + 1) = bs.length - 1 - k := by omega
    rw [List.getElem?_reverse hlt, ← hplace] at hget
    exact ⟨b, by rw [hk]; exact hget, hnc⟩

end SessionHost.Utf8
