import SessionHost.Proofs.Utf8.Restart

/-!
# Characters within a stream

The bytes of a character are read as that character and leave the decoder ready, so the character is
shown as such in every stream that holds its bytes at a place where it is in turn, whatever stands
before it and behind it (`lossy_character`). The four lengths are those of UTF-8; each is one run of
the decoder, whose range for the second byte rules out what a shorter sequence could say, surrogates,
and numbers that are too large.
-/
namespace SessionHost.Utf8

theorem lead_ofNat {n : Nat} (h : n < 256) : lead (UInt8.ofNat n) =
    if n < 0x80 then (.ready, [.scalar (Char.ofNat n)])
    else if n < 0xC2 then (.ready, [.malformed])
    else if n < 0xE0 then (.inside 0x80 0xBF 0 (n - 0xC0), [])
    else if n = 0xE0 then (.inside 0xA0 0xBF 1 0, [])
    else if n = 0xED then (.inside 0x80 0x9F 1 13, [])
    else if n < 0xF0 then (.inside 0x80 0xBF 1 (n - 0xE0), [])
    else if n = 0xF0 then (.inside 0x90 0xBF 2 0, [])
    else if n < 0xF4 then (.inside 0x80 0xBF 2 (n - 0xF0), [])
    else if n = 0xF4 then (.inside 0x80 0x8F 2 4, [])
    else (.ready, [.malformed]) := by
  have hn : (UInt8.ofNat n).toNat = n := by simp; omega
  have eq_iff (m : UInt8) : UInt8.ofNat n = m ↔ n = m.toNat := by
    rw [← UInt8.toNat_inj, hn]
  simp only [lead, UInt8.lt_iff_toNat_lt, eq_iff, hn]
  rfl

theorem step_last (lo hi : UInt8) (code : Nat) {n : Nat} (hn : n < 256) (hlo : lo.toNat ≤ n)
    (hhi : n ≤ hi.toNat) : step (.inside lo hi 0 code) (UInt8.ofNat n) =
      (.ready, [.scalar (Char.ofNat (code * 64 + (n - 0x80)))]) := by
  have ht : (UInt8.ofNat n).toNat = n := by simp; omega
  have hin : lo ≤ UInt8.ofNat n ∧ UInt8.ofNat n ≤ hi := by
    simp only [UInt8.le_iff_toNat_le, ht]; exact ⟨hlo, hhi⟩
  simp only [step, if_pos hin, ht]

theorem step_more (lo hi : UInt8) (more code : Nat) {n : Nat} (hn : n < 256) (hlo : lo.toNat ≤ n)
    (hhi : n ≤ hi.toNat) : step (.inside lo hi (more + 1) code) (UInt8.ofNat n) =
      (.inside 0x80 0xBF more (code * 64 + (n - 0x80)), []) := by
  have ht : (UInt8.ofNat n).toNat = n := by simp; omega
  have hin : lo ≤ UInt8.ofNat n ∧ UInt8.ofNat n ≤ hi := by
    simp only [UInt8.le_iff_toNat_le, ht]; exact ⟨hlo, hhi⟩
  simp only [step, if_pos hin, ht]

/-- From between two sequences, `bs` is read as one character and nothing else. -/
structure Reads (bs : Bytes) (c : Char) : Prop where
  after : after .ready bs = .ready
  emitted : emitted .ready bs = [.scalar c]
  first : ∀ b ∈ bs.head?, isContinuation b = false

theorem isContinuation_ofNat {n : Nat} (hn : n < 256) (h : n < 0x80 ∨ 0xC0 ≤ n) :
    isContinuation (UInt8.ofNat n) = false := by
  have ht : (UInt8.ofNat n).toNat = n := by simp; omega
  rw [isContinuation_eq_false_iff, UInt8.lt_iff_toNat_lt, UInt8.lt_iff_toNat_lt, ht]
  exact h.imp_right fun h => Nat.lt_of_lt_of_le (by decide) h

theorem reads_one {a : Nat} (ha : a < 0x80) : Reads [UInt8.ofNat a] (Char.ofNat a) := by
  have h1 : step .ready (UInt8.ofNat a) = (.ready, [.scalar (Char.ofNat a)]) := by
    rw [step, lead_ofNat (by omega), if_pos ha]
  refine ⟨?_, ?_, ?_⟩
  · simp [after, h1]
  · simp [emitted, h1]
  · simpa using isContinuation_ofNat (by omega) (Or.inl ha)

theorem reads_two {a b : Nat} (ha : 0xC2 ≤ a) (ha' : a < 0xE0) (hb : 0x80 ≤ b) (hb' : b ≤ 0xBF) :
    Reads [UInt8.ofNat a, UInt8.ofNat b] (Char.ofNat ((a - 0xC0) * 64 + (b - 0x80))) := by
  have h1 : step .ready (UInt8.ofNat a) = (.inside 0x80 0xBF 0 (a - 0xC0), []) := by
    rw [step, lead_ofNat (by omega), if_neg (by omega), if_neg (by omega), if_pos ha']
  have h2 := step_last 0x80 0xBF (a - 0xC0) (by omega) hb hb'
  refine ⟨?_, ?_, ?_⟩
  · simp [after, h1, h2]
  · simp [emitted, h1, h2]
  · simpa using isContinuation_ofNat (by omega) (Or.inr (by omega))

/-- The second byte of a sequence of three says neither what two bytes could say nor a surrogate. -/
theorem lead_three {a b : Nat} (ha : 0xE0 ≤ a) (ha' : a < 0xF0) (hb : 0x80 ≤ b) (hb' : b ≤ 0xBF)
    (short : a = 0xE0 → 0xA0 ≤ b) (surrogate : a = 0xED → b ≤ 0x9F) :
    ∃ lo hi : UInt8, step .ready (UInt8.ofNat a) = (.inside lo hi 1 (a - 0xE0), []) ∧
      lo.toNat ≤ b ∧ b ≤ hi.toNat := by
  rw [step, lead_ofNat (by omega), if_neg (by omega), if_neg (by omega), if_neg (by omega)]
  by_cases h0 : a = 0xE0
  · rw [if_pos h0, h0]
    exact ⟨0xA0, 0xBF, rfl, short h0, hb'⟩
  by_cases hd : a = 0xED
  · rw [if_neg h0, if_pos hd, hd]
    exact ⟨0x80, 0x9F, rfl, hb, surrogate hd⟩
  rw [if_neg h0, if_neg hd, if_pos ha']
  exact ⟨0x80, 0xBF, rfl, hb, hb'⟩

theorem reads_three {a b d : Nat} (ha : 0xE0 ≤ a) (ha' : a < 0xF0) (hb : 0x80 ≤ b) (hb' : b ≤ 0xBF)
    (short : a = 0xE0 → 0xA0 ≤ b) (surrogate : a = 0xED → b ≤ 0x9F) (hd : 0x80 ≤ d)
    (hd' : d ≤ 0xBF) : Reads [UInt8.ofNat a, UInt8.ofNat b, UInt8.ofNat d]
      (Char.ofNat (((a - 0xE0) * 64 + (b - 0x80)) * 64 + (d - 0x80))) := by
  obtain ⟨lo, hi, h1, hlo, hhi⟩ := lead_three ha ha' hb hb' short surrogate
  have h2 := step_more lo hi 0 (a - 0xE0) (by omega) hlo hhi
  have h3 := step_last 0x80 0xBF ((a - 0xE0) * 64 + (b - 0x80)) (by omega) hd hd'
  refine ⟨?_, ?_, ?_⟩
  · simp [after, h1, h2, h3]
  · simp [emitted, h1, h2, h3]
  · simpa using isContinuation_ofNat (by omega) (Or.inr (by omega))

/-- The second byte of a sequence of four says neither what three bytes could say nor a number that is
too large. -/
theorem lead_four {a b : Nat} (ha : 0xF0 ≤ a) (ha' : a < 0xF5) (hb : 0x80 ≤ b) (hb' : b ≤ 0xBF)
    (short : a = 0xF0 → 0x90 ≤ b) (large : a = 0xF4 → b ≤ 0x8F) :
    ∃ lo hi : UInt8, step .ready (UInt8.ofNat a) = (.inside lo hi 2 (a - 0xF0), []) ∧
      lo.toNat ≤ b ∧ b ≤ hi.toNat := by
  rw [step, lead_ofNat (by omega), if_neg (by omega), if_neg (by omega), if_neg (by omega),
    if_neg (by omega), if_neg (by omega), if_neg (by omega)]
  by_cases h0 : a = 0xF0
  · rw [if_pos h0, h0]
    exact ⟨0x90, 0xBF, rfl, short h0, hb'⟩
  by_cases h4 : a = 0xF4
  · rw [if_neg h0, if_neg (by omega), if_pos h4, h4]
    exact ⟨0x80, 0x8F, rfl, hb, large h4⟩
  rw [if_neg h0, if_pos (by omega)]
  exact ⟨0x80, 0xBF, rfl, hb, hb'⟩

theorem reads_four {a b d e : Nat} (ha : 0xF0 ≤ a) (ha' : a < 0xF5) (hb : 0x80 ≤ b)
    (hb' : b ≤ 0xBF) (short : a = 0xF0 → 0x90 ≤ b) (large : a = 0xF4 → b ≤ 0x8F) (hd : 0x80 ≤ d)
    (hd' : d ≤ 0xBF) (he : 0x80 ≤ e) (he' : e ≤ 0xBF) :
    Reads [UInt8.ofNat a, UInt8.ofNat b, UInt8.ofNat d, UInt8.ofNat e]
      (Char.ofNat ((((a - 0xF0) * 64 + (b - 0x80)) * 64 + (d - 0x80)) * 64 + (e - 0x80))) := by
  obtain ⟨lo, hi, h1, hlo, hhi⟩ := lead_four ha ha' hb hb' short large
  have h2 := step_more lo hi 1 (a - 0xF0) (by omega) hlo hhi
  have h3 := step_more 0x80 0xBF 0 ((a - 0xF0) * 64 + (b - 0x80)) (by omega) hd hd'
  have h4 := step_last 0x80 0xBF (((a - 0xF0) * 64 + (b - 0x80)) * 64 + (d - 0x80)) (by omega) he he'
  refine ⟨?_, ?_, ?_⟩
  · simp [after, h1, h2, h3, h4]
  · simp [emitted, h1, h2, h3, h4]
  · simpa using isContinuation_ofNat (by omega) (Or.inr (by omega))

/-- The numbers of characters, written out in as many bytes as they need. -/
theorem reads_ofNat {v : Nat} (hv : v < 0xD800 ∨ 0xDFFF < v ∧ v < 0x110000) :
    Reads (if v ≤ 0x7F then [UInt8.ofNat v]
      else if v ≤ 0x7FF then [UInt8.ofNat (v / 64 % 0x20 + 0xC0), UInt8.ofNat (v % 0x40 + 0x80)]
      else if v ≤ 0xFFFF then
        [UInt8.ofNat (v / 4096 % 0x10 + 0xE0), UInt8.ofNat (v / 64 % 0x40 + 0x80),
          UInt8.ofNat (v % 0x40 + 0x80)]
      else
        [UInt8.ofNat (v / 262144 % 0x08 + 0xF0), UInt8.ofNat (v / 4096 % 0x40 + 0x80),
          UInt8.ofNat (v / 64 % 0x40 + 0x80), UInt8.ofNat (v % 0x40 + 0x80)])
      (Char.ofNat v) := by
  by_cases h1 : v ≤ 0x7F
  · rw [if_pos h1]
    exact reads_one (by omega)
  by_cases h2 : v ≤ 0x7FF
  · rw [if_neg h1, if_pos h2]
    have h := reads_two (a := v / 64 % 0x20 + 0xC0) (b := v % 0x40 + 0x80) (by omega) (by omega)
      (by omega) (by omega)
    rwa [show (v / 64 % 0x20 + 0xC0 - 0xC0) * 64 + (v % 0x40 + 0x80 - 0x80) = v by omega] at h
  by_cases h3 : v ≤ 0xFFFF
  · rw [if_neg h1, if_neg h2, if_pos h3]
    have h := reads_three (a := v / 4096 % 0x10 + 0xE0) (b := v / 64 % 0x40 + 0x80)
      (d := v % 0x40 + 0x80) (by omega) (by omega) (by omega) (by omega) (by omega) (by omega)
      (by omega) (by omega)
    rwa [show ((v / 4096 % 0x10 + 0xE0 - 0xE0) * 64 + (v / 64 % 0x40 + 0x80 - 0x80)) * 64 +
      (v % 0x40 + 0x80 - 0x80) = v by omega] at h
  · rw [if_neg h1, if_neg h2, if_neg h3]
    have h := reads_four (a := v / 262144 % 0x08 + 0xF0) (b := v / 4096 % 0x40 + 0x80)
      (d := v / 64 % 0x40 + 0x80) (e := v % 0x40 + 0x80) (by omega) (by omega) (by omega) (by omega)
      (by omega) (by omega) (by omega) (by omega) (by omega) (by omega)
    rwa [show (((v / 262144 % 0x08 + 0xF0 - 0xF0) * 64 + (v / 4096 % 0x40 + 0x80 - 0x80)) * 64 +
      (v / 64 % 0x40 + 0x80 - 0x80)) * 64 + (v % 0x40 + 0x80 - 0x80) = v by omega] at h

theorem reads_character (c : Char) : Reads (String.utf8EncodeChar c) c := by
  have h := reads_ofNat c.valid
  rwa [show Char.ofNat c.val.toNat = c from Char.ofNat_toNat c] at h

/-- A character of a stream is shown as such, whatever stands before it and behind it. -/
theorem lossy_character (p : Bytes) (c : Char) (r : Bytes) :
    lossy (p ++ String.utf8EncodeChar c ++ r) = lossy p ++ String.singleton c ++ lossy r := by
  have hc := reads_character c
  have hbehind : Restarts (p ++ String.utf8EncodeChar c) r := by
    refine Or.inl ?_
    cases he : String.utf8EncodeChar c with
    | nil => exact absurd he (by simp)
    | cons b bs =>
      have hfirst : Restarts p (b :: bs) := Or.inr fun d hd => hc.first d (by rwa [he])
      rw [after_append_cons_of_restarts hfirst, ← he]
      exact hc.after
  have hbefore : Restarts p (String.utf8EncodeChar c) := Or.inr hc.first
  have hown : lossy (String.utf8EncodeChar c) = String.singleton c := by
    rw [lossy, symbols_eq, hc.after, hc.emitted]
    rfl
  rw [lossy_append_of_restarts hbehind, lossy_append_of_restarts hbefore, hown]

end SessionHost.Utf8
