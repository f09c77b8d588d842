import SessionHost.Proofs.Utf8.Restart

/-!
# What is held back at the end of a text

The boundary rule holds back a sequence that announces more bytes than have arrived (`IsOpen`). It goes by
the number that the first byte announces and looks at nothing else, so it holds back every character that
is cut off (`IsCut`), and some sequences that no further byte makes a character of (`Barred`).

**Characters.** `Formed` lists the well-formed sequences by the ranges of their bytes. They are the bytes of
the characters and no others (`formed_iff`), so what bars a sequence can be read off its first two bytes
(`isCut_iff`).

**Results.**
* `drop_completeLength_of_isOpen`, `isOpen_of_drop_completeLength`: an open sequence at the end of a text is
  held back, and nothing else ever is.
* `held_back`: a character that is cut off is held back as it is; anything else that is held back is
  barred, and that happens at the end of every text that ends so.
* `barred_lead_held_back`: such a text.
-/
namespace SessionHost.Utf8

/-! ## Well-formed sequences -/

theorem continuation_iff_toNat {b : UInt8} :
    isContinuation b = true ↔ 0x80 ≤ b.toNat ∧ b.toNat ≤ 0xBF := by
  rw [isContinuation_iff, UInt8.le_iff_toNat_le, UInt8.le_iff_toNat_le]
  rfl

theorem announcedWidth_eq (b : UInt8) : announcedWidth b =
    if 0xC0 ≤ b.toNat ∧ b.toNat ≤ 0xDF then 2
    else if 0xE0 ≤ b.toNat ∧ b.toNat ≤ 0xEF then 3
    else if 0xF0 ≤ b.toNat ∧ b.toNat ≤ 0xF7 then 4
    else 1 := by
  simp only [announcedWidth, UInt8.le_iff_toNat_le]
  rfl

theorem of_lt_announcedWidth {a : UInt8} {n : Nat} (h : n < announcedWidth a) :
    n < 4 ∧ (2 ≤ n → 0xE0 ≤ a.toNat) ∧ (3 ≤ n → 0xF0 ≤ a.toNat) := by
  rw [announcedWidth_eq] at h
  repeat' split at h
  all_goals omega

theorem ofNat_eq {b : UInt8} {n : Nat} (h : b.toNat = n) : UInt8.ofNat n = b := by
  rw [← h, UInt8.ofNat_toNat]

/-- A byte that may stand second in a character whose first byte is `a`. -/
structure Follows (a b : UInt8) : Prop where
  continues : isContinuation b = true
  /-- Two bytes do not say what one can, nor three what two can, nor four what three can. -/
  short : (a.toNat = 0xE0 → 0xA0 ≤ b.toNat) ∧ (a.toNat = 0xF0 → 0x90 ≤ b.toNat)
  surrogate : a.toNat = 0xED → b.toNat ≤ 0x9F
  large : a.toNat = 0xF4 → b.toNat ≤ 0x8F

/-- The well-formed sequences of bytes. -/
inductive Formed : Bytes → Prop where
  | one {a : UInt8} (ha : a.toNat < 0x80) : Formed [a]
  | two {a b : UInt8} (ha : 0xC2 ≤ a.toNat) (ha' : a.toNat < 0xE0) (hb : Follows a b) : Formed [a, b]
  | three {a b d : UInt8} (ha : 0xE0 ≤ a.toNat) (ha' : a.toNat < 0xF0) (hb : Follows a b)
      (hd : isContinuation d = true) : Formed [a, b, d]
  | four {a b d e : UInt8} (ha : 0xF0 ≤ a.toNat) (ha' : a.toNat < 0xF5) (hb : Follows a b)
      (hd : isContinuation d = true) (he : isContinuation e = true) : Formed [a, b, d, e]

/-- A byte that carries six bits of a number is a continuation. -/
theorem isContinuation_low (n : Nat) : isContinuation (UInt8.ofNat (n % 64 + 128)) = true := by
  rw [continuation_iff_toNat, UInt8.toNat_ofNat']
  omega

theorem follows_low {m n : Nat} (hm : m < 256) (h3 : m = 0xE0 → 0xA0 ≤ n % 64 + 128)
    (h4 : m = 0xF0 → 0x90 ≤ n % 64 + 128) (hs : m = 0xED → n % 64 + 128 ≤ 0x9F)
    (hl : m = 0xF4 → n % 64 + 128 ≤ 0x8F) : Follows (UInt8.ofNat m) (UInt8.ofNat (n % 64 + 128)) := by
  refine ⟨isContinuation_low n, ?_, ?_, ?_⟩ <;> simp only [UInt8.toNat_ofNat'] <;> omega

theorem formed_utf8EncodeChar (c : Char) : Formed (String.utf8EncodeChar c) := by
  have hv : c.val.toNat < 0xD800 ∨ 0xDFFF < c.val.toNat ∧ c.val.toNat < 0x110000 := c.valid
  unfold String.utf8EncodeChar
  generalize c.val.toNat = v at hv
  dsimp only
  split
  · exact .one (by rw [UInt8.toNat_ofNat']; omega)
  split
  · refine .two ?_ ?_ (follows_low ?_ ?_ ?_ ?_ ?_)
    · rw [UInt8.toNat_ofNat']; omega
    · rw [UInt8.toNat_ofNat']; omega
    all_goals omega
  split
  · refine .three ?_ ?_ (follows_low ?_ ?_ ?_ ?_ ?_) (isContinuation_low v)
    · rw [UInt8.toNat_ofNat']; omega
    · rw [UInt8.toNat_ofNat']; omega
    all_goals omega
  · refine .four ?_ ?_ (follows_low ?_ ?_ ?_ ?_ ?_) (isContinuation_low (v / 64)) (isContinuation_low v)
    · rw [UInt8.toNat_ofNat']; omega
    · rw [UInt8.toNat_ofNat']; omega
    all_goals omega

theorem toNat_val_ofNat {v : Nat} (hv : v < 0xD800 ∨ 0xDFFF < v ∧ v < 0x110000) :
    (Char.ofNat v).val.toNat = v := by
  rw [Char.ofNat, dif_pos hv]
  rfl

/-- A well-formed sequence is the bytes of the character whose number it spells. -/
theorem exists_char_of_formed {bs : Bytes} (h : Formed bs) :
    ∃ c : Char, String.utf8EncodeChar c = bs := by
  unfold String.utf8EncodeChar
  cases h with
  | @one a ha =>
    refine ⟨Char.ofNat a.toNat, ?_⟩
    rw [toNat_val_ofNat (by omega)]
    dsimp only
    rw [if_pos (by omega), UInt8.ofNat_toNat]
  | @two a b ha ha' hb =>
    obtain ⟨hlo, hhi⟩ := continuation_iff_toNat.1 hb.continues
    refine ⟨Char.ofNat ((a.toNat - 0xC0) * 64 + (b.toNat - 0x80)), ?_⟩
    rw [toNat_val_ofNat (by omega)]
    dsimp only
    rw [if_neg (by omega), if_pos (by omega), ofNat_eq (b := a) (by omega),
      ofNat_eq (b := b) (by omega)]
  | @three a b d ha ha' hb hd =>
    obtain ⟨hlo, hhi⟩ := continuation_iff_toNat.1 hb.continues
    obtain ⟨hdlo, hdhi⟩ := continuation_iff_toNat.1 hd
    have hshort := hb.short.1
    have hsurrogate := hb.surrogate
    refine ⟨Char.ofNat (((a.toNat - 0xE0) * 64 + (b.toNat - 0x80)) * 64 + (d.toNat - 0x80)), ?_⟩
    rw [toNat_val_ofNat (by omega)]
    dsimp only
    rw [if_neg (by omega), if_neg (by omega), if_pos (by omega), ofNat_eq (b := a) (by omega),
      ofNat_eq (b := b) (by omega), ofNat_eq (b := d) (by omega)]
  | @four a b d e ha ha' hb hd he =>
    obtain ⟨hlo, hhi⟩ := continuation_iff_toNat.1 hb.continues
    obtain ⟨hdlo, hdhi⟩ := continuation_iff_toNat.1 hd
    obtain ⟨helo, hehi⟩ := continuation_iff_toNat.1 he
    have hshort := hb.short.2
    have hlarge := hb.large
    refine ⟨Char.ofNat ((((a.toNat - 0xF0) * 64 + (b.toNat - 0x80)) * 64 + (d.toNat - 0x80)) * 64 +
      (e.toNat - 0x80)), ?_⟩
    rw [toNat_val_ofNat (by omega)]
    dsimp only
    rw [if_neg (by omega), if_neg (by omega), if_neg (by omega), ofNat_eq (b := a) (by omega),
      ofNat_eq (b := b) (by omega), ofNat_eq (b := d) (by omega), ofNat_eq (b := e) (by omega)]

/-- The well-formed sequences are the bytes of the characters. -/
theorem formed_iff {bs : Bytes} : Formed bs ↔ ∃ c : Char, String.utf8EncodeChar c = bs :=
  ⟨exists_char_of_formed, fun ⟨c, hc⟩ => hc ▸ formed_utf8EncodeChar c⟩

/-! ## Sequences that are cut off -/

/-- The beginning of a character, without its last bytes. -/
structure IsCut (p : Bytes) : Prop where
  ne_nil : p ≠ []
  exists_char : ∃ c : Char, p <+: String.utf8EncodeChar c ∧ p ≠ String.utf8EncodeChar c

/-- A first byte that announces more bytes than follow it. -/
structure IsOpen (p : Bytes) : Prop where
  exists_lead : ∃ b rest, p = b :: rest ∧ (∀ c ∈ rest, isContinuation c = true) ∧
    rest.length + 1 < announcedWidth b

/-- Why an open sequence is the beginning of no character. -/
inductive Barred : Bytes → Prop where
  /-- No character begins with this byte. -/
  | lead {b : UInt8} {rest : Bytes} (h : b.toNat < 0xC2 ∨ 0xF4 < b.toNat) : Barred (b :: rest)
  /-- Fewer bytes say the same. -/
  | overlong {b c : UInt8} {rest : Bytes}
      (h : b.toNat = 0xE0 ∧ c.toNat < 0xA0 ∨ b.toNat = 0xF0 ∧ c.toNat < 0x90) : Barred (b :: c :: rest)
  /-- The number is that of a surrogate. -/
  | surrogate {b c : UInt8} {rest : Bytes} (h : b.toNat = 0xED ∧ 0x9F < c.toNat) : Barred (b :: c :: rest)
  /-- The number is larger than that of any character. -/
  | large {b c : UInt8} {rest : Bytes} (h : b.toNat = 0xF4 ∧ 0x8F < c.toNat) : Barred (b :: c :: rest)

theorem isCut_iff_formed {p : Bytes} : IsCut p ↔ p ≠ [] ∧ ∃ q, q ≠ [] ∧ Formed (p ++ q) := by
  constructor
  · rintro ⟨hp, c, ⟨q, hq⟩, hne⟩
    refine ⟨hp, q, ?_, hq ▸ formed_utf8EncodeChar c⟩
    rintro rfl
    rw [List.append_nil] at hq
    exact hne hq
  · rintro ⟨hp, q, hq, hf⟩
    obtain ⟨c, hc⟩ := formed_iff.1 hf
    refine ⟨hp, c, ⟨q, hc.symm⟩, fun he => hq ?_⟩
    exact List.append_right_eq_self.1 (hc.symm.trans he.symm)

theorem not_barred_single {a : UInt8} (h : 0xC2 ≤ a.toNat) (h' : a.toNat < 0xF5) : ¬ Barred [a] := by
  rintro ⟨h⟩
  omega

theorem not_barred_of_follows {a b : UInt8} {rest : Bytes} (h : 0xC2 ≤ a.toNat) (h' : a.toNat < 0xF5)
    (hb : Follows a b) : ¬ Barred (a :: b :: rest) := by
  have h3 := hb.short.1
  have h4 := hb.short.2
  have hs := hb.surrogate
  have hl := hb.large
  intro hbarred
  cases hbarred <;> omega

theorem follows_of_not_barred {a b : UInt8} {rest : Bytes} (hb : isContinuation b = true)
    (h : ¬ Barred (a :: b :: rest)) : Follows a b where
  continues := hb
  short := by
    refine ⟨fun ha => ?_, fun ha => ?_⟩
    · exact Nat.le_of_not_lt fun hlt => h (.overlong (.inl ⟨ha, hlt⟩))
    · exact Nat.le_of_not_lt fun hlt => h (.overlong (.inr ⟨ha, hlt⟩))
  surrogate ha := Nat.le_of_not_lt fun hlt => h (.surrogate ⟨ha, hlt⟩)
  large ha := Nat.le_of_not_lt fun hlt => h (.large ⟨ha, hlt⟩)

/-- Some byte may stand second in a character of more than one byte. -/
theorem exists_follows (a : UInt8) : ∃ b, Follows a b := by
  by_cases h3 : a.toNat = 0xE0
  · exact ⟨0xA0, by decide, by simp [h3], by omega, by omega⟩
  by_cases h4 : a.toNat = 0xF0
  · exact ⟨0x90, by decide, by simp [h4], by omega, by omega⟩
  · exact ⟨0x80, by decide, by omega, fun _ => by decide, fun _ => by decide⟩

/-- The first bytes of a well-formed sequence announce the others. -/
theorem isOpen_of_formed {a : UInt8} {rest q : Bytes} (hq : q ≠ []) (h : Formed (a :: (rest ++ q))) :
    IsOpen (a :: rest) ∧ ¬ Barred (a :: rest) := by
  have hwidth := announcedWidth_eq a
  generalize hbs : rest ++ q = bs at h
  cases h with
  | one ha =>
    exact absurd (List.append_eq_nil_iff.1 hbs).2 hq
  | two ha ha' hb =>
    obtain rfl : rest = [] := by
      rcases rest with _ | ⟨x, rest⟩
      · rfl
      · simp_all
    rw [if_pos (by omega)] at hwidth
    exact ⟨⟨a, [], rfl, nofun, by simp [hwidth]⟩, not_barred_single ha (by omega)⟩
  | @three _ b _ ha ha' hb hd =>
    rw [if_neg (by omega), if_pos (by omega)] at hwidth
    rcases rest with _ | ⟨x, _ | ⟨y, rest⟩⟩
    · exact ⟨⟨a, [], rfl, nofun, by simp [hwidth]⟩, not_barred_single (by omega) (by omega)⟩
    · obtain ⟨rfl, -⟩ := List.cons_eq_cons.1 hbs
      refine ⟨⟨a, _, rfl, ?_, by simp [hwidth]⟩, not_barred_of_follows (by omega) (by omega) hb⟩
      simpa using hb.continues
    · simp_all
  | @four _ b d _ ha ha' hb hd he =>
    rw [if_neg (by omega), if_neg (by omega), if_pos (by omega)] at hwidth
    rcases rest with _ | ⟨x, _ | ⟨y, _ | ⟨z, rest⟩⟩⟩
    · exact ⟨⟨a, [], rfl, nofun, by simp [hwidth]⟩, not_barred_single (by omega) (by omega)⟩
    · obtain ⟨rfl, -⟩ := List.cons_eq_cons.1 hbs
      refine ⟨⟨a, _, rfl, ?_, by simp [hwidth]⟩, not_barred_of_follows (by omega) (by omega) hb⟩
      simpa using hb.continues
    · obtain ⟨rfl, hbehind⟩ := List.cons_eq_cons.1 hbs
      obtain ⟨rfl, -⟩ := List.cons_eq_cons.1 (hbehind : y :: q = _)
      refine ⟨⟨a, _, rfl, ?_, by simp [hwidth]⟩, not_barred_of_follows (by omega) (by omega) hb⟩
      simpa using ⟨hb.continues, hd⟩
    · simp_all

/-- An open sequence that nothing bars can be completed. -/
theorem exists_formed_of_isOpen {p : Bytes} (h : IsOpen p) (hb : ¬ Barred p) :
    ∃ q, q ≠ [] ∧ Formed (p ++ q) := by
  obtain ⟨a, rest, rfl, hrest, hwidth⟩ := h
  have hlow : 0xC2 ≤ a.toNat := Nat.le_of_not_lt fun hlt => hb (.lead (.inl hlt))
  have hhigh : a.toNat < 0xF5 := Nat.lt_succ_of_le (Nat.le_of_not_lt fun hlt => hb (.lead (.inr hlt)))
  have hfill : isContinuation 0x80 = true := by decide
  obtain ⟨hshort, htwo, hthree⟩ := of_lt_announcedWidth hwidth
  rcases rest with _ | ⟨b, _ | ⟨d, _ | ⟨e, rest⟩⟩⟩
  · obtain ⟨b, hb⟩ := exists_follows a
    by_cases hE0 : a.toNat < 0xE0
    · exact ⟨[b], nofun, .two hlow hE0 hb⟩
    by_cases hF0 : a.toNat < 0xF0
    · exact ⟨[b, 0x80], nofun, .three (by omega) hF0 hb hfill⟩
    · exact ⟨[b, 0x80, 0x80], nofun, .four (by omega) hhigh hb hfill hfill⟩
  · have hfollows := follows_of_not_barred (hrest b List.mem_cons_self) hb
    have hE0 := htwo (Nat.le_refl 2)
    by_cases hF0 : a.toNat < 0xF0
    · exact ⟨[0x80], nofun, .three hE0 hF0 hfollows hfill⟩
    · exact ⟨[0x80, 0x80], nofun, .four (by omega) hhigh hfollows hfill hfill⟩
  · have hfollows := follows_of_not_barred (hrest b List.mem_cons_self) hb
    have hd := hrest d (by simp)
    exact ⟨[0x80], nofun, .four (hthree (Nat.le_refl 3)) hhigh hfollows hd hfill⟩
  · simp only [List.length_cons] at hshort
    omega

theorem isCut_iff {p : Bytes} : IsCut p ↔ IsOpen p ∧ ¬ Barred p := by
  rw [isCut_iff_formed]
  constructor
  · rintro ⟨hp, q, hq, hf⟩
    obtain ⟨a, rest, rfl⟩ := List.exists_cons_of_ne_nil hp
    exact isOpen_of_formed hq hf
  · rintro ⟨ho, hb⟩
    refine ⟨?_, exists_formed_of_isOpen ho hb⟩
    obtain ⟨a, rest, rfl, -⟩ := ho
    exact nofun

/-! ## The boundary rule -/

theorem heldBack_append {reach back : Nat} {passed : Bytes} (hp : ∀ c ∈ passed, isContinuation c = true)
    (hr : passed.length ≤ reach) (xs : Bytes) : heldBack reach back (passed ++ xs) =
      heldBack (reach - passed.length) (back + passed.length) xs := by
  induction passed generalizing reach back with
  | nil => simp
  | cons c passed ih =>
    obtain ⟨hc, hp⟩ := List.forall_mem_cons.1 hp
    cases reach with
    | zero => simp at hr
    | succ reach =>
      rw [List.length_cons] at hr
      rw [List.cons_append, heldBack, if_pos hc, ih hp (by omega), List.length_cons]
      congr 1 <;> omega

/-- What is held back ends with bytes that were passed over, and begins with one that announces more. -/
theorem heldBack_cases (reach back : Nat) (xs : Bytes) : heldBack reach back xs = 0 ∨
    ∃ passed b ys, xs = passed ++ b :: ys ∧ (∀ c ∈ passed, isContinuation c = true) ∧
      back + passed.length + 1 < announcedWidth b ∧
        heldBack reach back xs = back + passed.length + 1 := by
  induction xs generalizing reach back with
  | nil => exact .inl (by cases reach <;> rfl)
  | cons c xs ih =>
    cases reach with
    | zero => exact .inl rfl
    | succ reach =>
      rw [heldBack]
      split
      · rename_i hc
        rcases ih reach (back + 1) with h | ⟨passed, b, ys, rfl, hp, hw, h⟩
        · exact .inl h
        · refine .inr ⟨c :: passed, b, ys, rfl, List.forall_mem_cons.2 ⟨hc, hp⟩, ?_, ?_⟩
          · rw [List.length_cons]; omega
          · rw [h, List.length_cons]; omega
      · split
        · rename_i hw
          exact .inr ⟨[], c, xs, rfl, fun _ h => absurd h List.not_mem_nil, hw, rfl⟩
        · exact .inl rfl

theorem not_continuation_of_lt {b : UInt8} {n : Nat} (h : n + 1 < announcedWidth b) :
    isContinuation b = false := by
  rw [Bool.eq_false_iff]
  intro hc
  have hrange := continuation_iff_toNat.1 hc
  rw [announcedWidth_eq, if_neg (by omega), if_neg (by omega), if_neg (by omega)] at h
  omega

theorem drop_completeLength_of_isOpen {bs p : Bytes} (h : IsOpen p) (hs : p <:+ bs) :
    bs.drop (completeLength bs) = p := by
  obtain ⟨q, rfl⟩ := hs
  obtain ⟨b, rest, rfl, hrest, hwidth⟩ := h
  obtain ⟨hshort, -, -⟩ := of_lt_announcedWidth hwidth
  have hback : heldBack 4 0 (q ++ b :: rest).reverse = rest.length + 1 := by
    rw [List.reverse_append, List.reverse_cons, List.append_assoc, List.singleton_append,
      heldBack_append (by simpa using hrest) (by rw [List.length_reverse]; omega), List.length_reverse,
      show 4 - rest.length = 3 - rest.length + 1 by omega, heldBack,
      if_neg (by simp [not_continuation_of_lt hwidth]), if_pos (by omega), Nat.zero_add]
  rw [completeLength, hback, List.length_append, List.length_cons, Nat.add_sub_cancel, List.drop_left]

theorem isOpen_of_drop_completeLength (bs : Bytes) :
    bs.drop (completeLength bs) = [] ∨ IsOpen (bs.drop (completeLength bs)) := by
  rcases heldBack_cases 4 0 bs.reverse with h | ⟨passed, b, ys, hbs, hp, hw, h⟩
  · left
    rw [completeLength, h]
    exact List.drop_length
  · right
    rw [Nat.zero_add] at hw
    have ho : IsOpen (b :: passed.reverse) :=
      ⟨b, _, rfl, by simpa using hp, by rwa [List.length_reverse]⟩
    rw [drop_completeLength_of_isOpen ho]
    · exact ho
    · refine ⟨ys.reverse, ?_⟩
      have hrev := congrArg List.reverse hbs
      rw [List.reverse_reverse] at hrev
      rw [hrev]
      simp

structure HoldsBack (bs tail : Bytes) : Prop where
  /-- A character that is cut off at the end is held back, and nothing before it. -/
  cut : ∀ p, IsCut p → p <:+ bs → tail = p
  /-- Otherwise nothing is held back, or a sequence that no character begins with. -/
  only : tail = [] ∨ IsCut tail ∨ IsOpen tail ∧ Barred tail
  /-- What is held back begins with no stray continuation byte. -/
  stray : ∀ b ∈ tail.head?, isContinuation b = false
  /-- The latter happens at the end of every text that ends so. -/
  barred : (tail = [] ∨ IsCut tail) ↔ ∀ p, IsOpen p → Barred p → ¬ p <:+ bs

/-- What the boundary rule holds back is the character that is cut off at the end of the text, unless a
sequence stands there that announces more bytes than follow and that is barred. -/
theorem held_back (bs : Bytes) : HoldsBack bs (bs.drop (completeLength bs)) where
  cut p hp hs := drop_completeLength_of_isOpen (isCut_iff.1 hp).1 hs
  only := by
    refine (isOpen_of_drop_completeLength bs).imp_right fun ho => ?_
    by_cases hb : Barred (bs.drop (completeLength bs))
    · exact .inr ⟨ho, hb⟩
    · exact .inl (isCut_iff.2 ⟨ho, hb⟩)
  stray b hb := by
    rcases isOpen_of_drop_completeLength bs with hnil | ⟨a, rest, hopen, -, hwidth⟩
    · rw [hnil] at hb
      cases hb
    · rw [hopen] at hb
      obtain rfl := Option.some.inj hb
      exact not_continuation_of_lt hwidth
  barred := by
    constructor
    · intro h p ho hb hs
      rw [drop_completeLength_of_isOpen ho hs] at h
      rcases h with rfl | hcut
      · obtain ⟨b, rest, hp, -⟩ := ho
        cases hp
      · exact (isCut_iff.1 hcut).2 hb
    · intro h
      refine (isOpen_of_drop_completeLength bs).imp_right fun ho => isCut_iff.2 ⟨ho, fun hb => ?_⟩
      exact h _ ho hb (List.drop_suffix ..)

/-- The byte C0 announces a second one and begins no character, and it is held back. -/
theorem barred_lead_held_back : ¬ (([0xC0] : Bytes).drop (completeLength [0xC0]) = [] ∨
    IsCut (([0xC0] : Bytes).drop (completeLength [0xC0]))) := by
  rw [show ([0xC0] : Bytes).drop (completeLength [0xC0]) = [0xC0] by decide]
  rintro (h | h)
  · cases h
  · exact (isCut_iff.1 h).2 (.lead (.inl (by decide)))

end SessionHost.Utf8
