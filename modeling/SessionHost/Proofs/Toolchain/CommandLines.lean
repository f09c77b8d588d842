import Mathlib.Data.List.Basic
import SessionHost.Toolchain.Basic

/-!
# Where the words of a user stand in a command line

What a user writes is cut into words at blanks, and the words come behind a fixed part: the source and the
binary for a compiler, nothing for a program, and the options of the debugger and the binary for a
debugger. Whatever a user writes, the fixed part is the same and stands at the same places.

**Results.**
* `Text.holds_iff`: the words of a text are what stands in it between blanks.
* `Text.Holds.exists_spans`: they are its runs of characters that are not blank and cannot be longer, in
  order.
* `Text.words_append`, `Text.words_joined`: a text can be cut at any gap, and words that are put together
  again with any gaps are the same words.
* `Toolchain.laid_out`: the command lines of compilers, programs and debuggers.
-/
namespace SessionHost.Text

def Blank (cs : List Char) : Prop := ∀ c ∈ cs, isBlank c = true

/-- At least one character, and none is blank. -/
structure Solid (cs : List Char) : Prop where
  ne_nil : cs ≠ []
  solid : ∀ c ∈ cs, isBlank c = false

/-- The text is at its end, or at a blank. -/
def Stops (cs : List Char) : Prop := ∀ c ∈ cs.head?, isBlank c = true

/-- Words as they stand in a text: before, behind and between them there are blanks only, and there is a
blank between any two. -/
inductive Holds : List Char → List (List Char) → Prop where
  | blank {cs : List Char} (h : Blank cs) : Holds cs []
  | word {gap w rest : List Char} {ws : List (List Char)} (hg : Blank gap) (hw : Solid w)
      (hs : Stops rest) (hr : Holds rest ws) : Holds (gap ++ w ++ rest) (w :: ws)

variable {cs gap w rest : List Char} {ws : List (List Char)} {i j : Nat}

/-! ## Reading words -/

theorem wordsFrom_done (cs : List Char) (done : List String) (word : List Char) :
    wordsFrom done word cs = done.reverse ++ wordsFrom [] word cs := by
  induction cs generalizing done word with
  | nil => cases word <;> simp [wordsFrom]
  | cons c cs ih =>
    unfold wordsFrom
    by_cases hc : isBlank c = true
    · simp only [hc, if_true]
      cases word with
      | nil => exact ih done []
      | cons d word =>
        simp only [List.isEmpty_cons, Bool.false_eq_true, if_false]
        rw [ih (_ :: done), ih [_]]
        simp
    · simp only [hc, Bool.false_eq_true, if_false]
      exact ih done _

theorem wordsFrom_blank (h : Blank gap) (rest : List Char) :
    wordsFrom [] [] (gap ++ rest) = wordsFrom [] [] rest := by
  induction gap with
  | nil => rfl
  | cons c gap ih =>
    have hc : isBlank c = true := h c List.mem_cons_self
    rw [List.cons_append, wordsFrom, if_pos hc]
    exact ih fun d hd => h d (List.mem_cons_of_mem _ hd)

/-- Characters that are not blank are added to the word that has begun. -/
theorem wordsFrom_solid (h : ∀ c ∈ w, isBlank c = false) (word rest : List Char) :
    wordsFrom [] word (w ++ rest) = wordsFrom [] (w.reverse ++ word) rest := by
  induction w generalizing word with
  | nil => rfl
  | cons c w ih =>
    have hc : isBlank c = false := h c List.mem_cons_self
    rw [List.cons_append, wordsFrom, hc, if_neg Bool.false_ne_true,
      ih fun d hd => h d (List.mem_cons_of_mem _ hd)]
    simp

theorem wordsFrom_stops {word : List Char} (hne : word ≠ []) (h : Stops rest) :
    wordsFrom [] word rest = String.ofList word.reverse :: wordsFrom [] [] rest := by
  have hempty : word.isEmpty = false := by simpa using hne
  cases rest with
  | nil => simp [wordsFrom, hempty]
  | cons c rest =>
    have hc : isBlank c = true := h c rfl
    rw [wordsFrom, if_pos hc, hempty, if_neg Bool.false_ne_true, wordsFrom_done, wordsFrom, if_pos hc]
    rfl

theorem Holds.words (h : Holds cs ws) : wordsFrom [] [] cs = ws.map String.ofList := by
  induction h with
  | @blank cs h =>
    have := wordsFrom_blank h []
    rw [List.append_nil] at this
    rw [this]
    rfl
  | @word gap w rest ws hg hw hs hr ih =>
    rw [List.append_assoc, wordsFrom_blank hg, wordsFrom_solid hw.solid, List.append_nil,
      wordsFrom_stops (by simpa using hw.ne_nil) hs, List.reverse_reverse, ih]
    rfl

theorem Holds.blank_cons {c : Char} (h : Holds cs ws) (hc : isBlank c = true) : Holds (c :: cs) ws := by
  cases h with
  | blank h => exact .blank (List.forall_mem_cons.2 ⟨hc, h⟩)
  | @word gap w rest ws hg hw hs hr =>
    have hgap : Blank (c :: gap) := List.forall_mem_cons.2 ⟨hc, hg⟩
    have hall := Holds.word hgap hw hs hr
    rwa [List.cons_append, List.cons_append] at hall

/-- Another character that is not blank begins a word, or belongs to the first one. -/
theorem Holds.solid_cons {c : Char} (h : Holds cs ws) (hc : isBlank c = false) :
    ∃ vs, Holds (c :: cs) vs := by
  by_cases hs : Stops cs
  · have hw : Solid [c] := ⟨List.cons_ne_nil _ _, List.forall_mem_singleton.2 hc⟩
    have hall : Holds ([] ++ [c] ++ cs) ([c] :: ws) := .word (List.forall_mem_nil _) hw hs h
    exact ⟨_, hall⟩
  · cases h with
    | blank h => exact absurd (fun d hd => h d (List.mem_of_mem_head? hd)) hs
    | @word gap w rest ws hg hw hstop hr =>
      cases gap with
      | cons d gap => exact absurd (fun e he => by cases he; exact hg d List.mem_cons_self) hs
      | nil =>
        have hw' : Solid (c :: w) := ⟨List.cons_ne_nil _ _, List.forall_mem_cons.2 ⟨hc, hw.solid⟩⟩
        have hall : Holds ([] ++ (c :: w) ++ rest) ((c :: w) :: ws) :=
          .word (List.forall_mem_nil _) hw' hstop hr
        exact ⟨_, hall⟩

theorem exists_holds (cs : List Char) : ∃ ws, Holds cs ws := by
  induction cs with
  | nil => exact ⟨[], .blank (List.forall_mem_nil _)⟩
  | cons c cs ih =>
    obtain ⟨ws, h⟩ := ih
    cases hc : isBlank c with
    | true => exact ⟨ws, h.blank_cons hc⟩
    | false => exact h.solid_cons hc

/-- The words of a text are what stands in it. -/
theorem holds_iff {s : String} {ws : List String} :
    Holds s.toList (ws.map String.toList) ↔ words s = ws := by
  have back : (ws.map String.toList).map String.ofList = ws := by simp
  constructor
  · intro h
    rw [words, h.words, back]
  · rintro rfl
    obtain ⟨vs, h⟩ := exists_holds s.toList
    have hvs : words s = vs.map String.ofList := h.words
    rw [hvs]
    simpa using h

theorem Holds.solid_of_mem (h : Holds cs ws) : ∀ w ∈ ws, Solid w := by
  induction h with
  | blank h => exact List.forall_mem_nil _
  | word hg hw hs hr ih => exact List.forall_mem_cons.2 ⟨hw, ih⟩

/-! ## Cutting and joining -/

theorem Holds.gap_append (h : Holds cs ws) (hg : Blank gap) : Holds (gap ++ cs) ws := by
  induction gap with
  | nil => exact h
  | cons c gap ih =>
    obtain ⟨hc, hgap⟩ := List.forall_mem_cons.1 hg
    exact (ih hgap).blank_cons hc

/-- What stands in two texts that a gap keeps apart. -/
theorem Holds.append {ds : List Char} {vs : List (List Char)} (h : Holds cs ws) (h' : Holds ds vs)
    (hg : Blank gap) (hne : gap ≠ []) : Holds (cs ++ gap ++ ds) (ws ++ vs) := by
  induction h with
  | @blank cs hb =>
    rw [List.append_assoc]
    exact (h'.gap_append hg).gap_append hb
  | @word before w rest ws hb hw hs hr ih =>
    have hstop : Stops (rest ++ gap ++ ds) := by
      obtain ⟨g, gap, rfl⟩ := List.exists_cons_of_ne_nil hne
      cases rest with
      | nil =>
        intro d hd
        cases hd
        exact hg g List.mem_cons_self
      | cons r rest =>
        intro d hd
        cases hd
        exact hs r rfl
    have hall := Holds.word hb hw hstop ih
    simpa only [List.append_assoc, List.cons_append] using hall

theorem words_append (x y : String) {gap : String} (hg : Blank gap.toList) (hne : gap ≠ "") :
    words (x ++ gap ++ y) = words x ++ words y := by
  refine holds_iff.1 ?_
  have hne' : gap.toList ≠ [] := by simpa using hne
  simpa using (holds_iff.2 rfl).append (holds_iff.2 rfl) hg hne'

/-- Words with gaps between them, counted from the last. -/
def joined (gap : Nat → String) : List String → String
  | [] => ""
  | [w] => w
  | w :: v :: ws => w ++ gap ws.length ++ joined gap (v :: ws)

theorem words_of_solid {w : String} (h : Solid w.toList) : words w = [w] := by
  refine holds_iff.1 ?_
  have hall : Holds ([] ++ w.toList ++ []) [w.toList] :=
    .word (List.forall_mem_nil _) h nofun (.blank (List.forall_mem_nil _))
  simpa using hall

theorem words_joined {gap : Nat → String} (hg : ∀ n, Blank (gap n).toList ∧ gap n ≠ "")
    {ws : List String} (h : ∀ w ∈ ws, Solid w.toList) : words (joined gap ws) = ws := by
  induction ws with
  | nil => rfl
  | cons w ws ih =>
    obtain ⟨hw, hws⟩ := List.forall_mem_cons.1 h
    cases ws with
    | nil => exact words_of_solid hw
    | cons v ws =>
      rw [joined, words_append _ _ (hg _).1 (hg _).2, words_of_solid hw, ih hws]
      rfl

/-! ## Runs -/

/-- At the place `k` stands a character that is not blank. -/
def SolidAt (cs : List Char) (k : Nat) : Prop := ∃ c, cs[k]? = some c ∧ isBlank c = false

/-- The characters from `i` up to `j` are not blank, and no character next to them can be added. -/
structure IsRun (cs : List Char) (i j : Nat) : Prop where
  lt : i < j
  solid : ∀ k, i ≤ k → k < j → SolidAt cs k
  left : ∀ k, k + 1 = i → ¬ SolidAt cs k
  right : ¬ SolidAt cs j

/-- The characters from a place up to another. -/
def cut (cs : List Char) (span : Nat × Nat) : List Char := (cs.take span.2).drop span.1

theorem Blank.not_solidAt (h : Blank cs) {k : Nat} : ¬ SolidAt cs k := by
  rintro ⟨c, hc, hsolid⟩
  have hblank : isBlank c = true := h c (List.mem_of_getElem? hc)
  rw [hblank] at hsolid
  cases hsolid

theorem not_solidAt_gap (hg : Blank gap) {k : Nat} (hk : k < gap.length) :
    ¬ SolidAt (gap ++ w ++ rest) k := by
  have hsame : (gap ++ w ++ rest)[k]? = gap[k]? := by
    rw [List.append_assoc, List.getElem?_append_left hk]
  unfold SolidAt
  rw [hsame]
  exact hg.not_solidAt

theorem solidAt_word (hw : Solid w) {k : Nat} (hk : gap.length ≤ k) (hk' : k < gap.length + w.length) :
    SolidAt (gap ++ w ++ rest) k := by
  have hlt : k - gap.length < w.length := by omega
  refine ⟨w[k - gap.length], ?_, hw.solid _ (List.getElem_mem hlt)⟩
  rw [List.append_assoc, List.getElem?_append_right hk, List.getElem?_append_left hlt,
    List.getElem?_eq_getElem hlt]

theorem solidAt_rest {k : Nat} :
    SolidAt (gap ++ w ++ rest) (gap.length + w.length + k) ↔ SolidAt rest k := by
  have hsame : (gap ++ w ++ rest)[gap.length + w.length + k]? = rest[k]? := by
    rw [List.getElem?_append_right (by rw [List.length_append]; omega), List.length_append,
      Nat.add_sub_cancel_left]
  unfold SolidAt
  rw [hsame]

theorem Stops.not_solidAt (h : Stops rest) : ¬ SolidAt rest 0 := by
  rintro ⟨c, hc, hsolid⟩
  rw [h c (by rwa [List.head?_eq_getElem?])] at hsolid
  cases hsolid

theorem IsRun.pos (h : IsRun rest i j) (hs : Stops rest) : 0 < i := by
  refine Nat.pos_of_ne_zero ?_
  rintro rfl
  exact hs.not_solidAt (h.solid 0 (Nat.le_refl 0) h.lt)

theorem isRun_word (hg : Blank gap) (hw : Solid w) (hs : Stops rest) :
    IsRun (gap ++ w ++ rest) gap.length (gap.length + w.length) where
  lt := Nat.lt_add_of_pos_right (List.length_pos_iff.2 hw.ne_nil)
  solid _ hk hk' := solidAt_word hw hk hk'
  left _ hk := not_solidAt_gap hg (by omega)
  right := fun h => hs.not_solidAt (solidAt_rest.1 h)

theorem IsRun.behind (hs : Stops rest) (h : IsRun rest i j) :
    IsRun (gap ++ w ++ rest) (gap.length + w.length + i) (gap.length + w.length + j) where
  lt := Nat.add_lt_add_left h.lt _
  solid k hk hk' := by
    obtain ⟨k, rfl⟩ := Nat.exists_eq_add_of_le (Nat.le_of_add_right_le hk)
    exact solidAt_rest.2 (h.solid k (by omega) (by omega))
  left k hk := by
    -- what is behind the word begins with a blank, so that no run begins there
    obtain ⟨i, rfl⟩ := Nat.exists_eq_add_of_lt (h.pos hs)
    obtain rfl : k = gap.length + w.length + i := by omega
    exact fun hsolid => h.left i (by omega) (solidAt_rest.1 hsolid)
  right := fun hsolid => h.right (solidAt_rest.1 hsolid)

/-- The runs of a text are its first word, and the runs of what is behind. -/
theorem isRun_word_iff (hg : Blank gap) (hw : Solid w) (hs : Stops rest) :
    IsRun (gap ++ w ++ rest) i j ↔
      i = gap.length ∧ j = gap.length + w.length ∨
        ∃ i' j', IsRun rest i' j' ∧ gap.length + w.length + i' = i ∧ gap.length + w.length + j' = j := by
  constructor
  · intro h
    have hbegin : gap.length ≤ i := by
      by_contra hlt
      exact not_solidAt_gap hg (Nat.lt_of_not_le hlt) (h.solid i (Nat.le_refl i) h.lt)
    have hstart : i = gap.length ∨ gap.length + w.length ≤ i := by
      by_contra hin
      obtain ⟨k, rfl⟩ : ∃ k, i = k + 1 := ⟨i - 1, by omega⟩
      exact h.left k rfl (solidAt_word hw (by omega) (by omega))
    rcases hstart with rfl | hge
    · refine .inl ⟨rfl, Nat.le_antisymm ?_ ?_⟩
      · by_contra hlt
        exact hs.not_solidAt (solidAt_rest.1 (h.solid (gap.length + w.length + 0) (by omega) (by omega)))
      · by_contra hlt
        exact h.right (solidAt_word hw (Nat.le_of_lt h.lt) (Nat.lt_of_not_le hlt))
    · obtain ⟨i', rfl⟩ := Nat.exists_eq_add_of_le hge
      obtain ⟨j', rfl⟩ := Nat.exists_eq_add_of_le (Nat.le_trans hge (Nat.le_of_lt h.lt))
      refine .inr ⟨i', j', ⟨Nat.lt_of_add_lt_add_left h.lt, fun k hk hk' => ?_, fun k hk hsolid => ?_,
        fun hsolid => h.right (solidAt_rest.2 hsolid)⟩, rfl, rfl⟩
      · exact solidAt_rest.1 (h.solid _ (Nat.add_le_add_left hk _) (Nat.add_lt_add_left hk' _))
      · exact h.left (gap.length + w.length + k) (by omega) (solidAt_rest.2 hsolid)
  · rintro (⟨rfl, rfl⟩ | ⟨i', j', h, rfl, rfl⟩)
    · exact isRun_word hg hw hs
    · exact h.behind hs

/-- Places in a text, from left to right and with something between any two of them. -/
def Apart (spans : List (Nat × Nat)) : Prop := spans.Pairwise fun a b => a.2 < b.1

theorem cut_word : cut (gap ++ w ++ rest) (gap.length, gap.length + w.length) = w := by
  rw [cut, ← List.length_append, List.take_left, List.drop_left]

theorem cut_rest :
    cut (gap ++ w ++ rest) (gap.length + w.length + i, gap.length + w.length + j) = cut rest (i, j) := by
  rw [cut, cut, ← List.length_append, List.take_length_add_append, List.drop_length_add_append]

/-- The words of a text are its runs, in order. -/
theorem Holds.exists_spans (h : Holds cs ws) :
    ∃ spans, Apart spans ∧ (∀ i j, (i, j) ∈ spans ↔ IsRun cs i j) ∧ ws = spans.map (cut cs) := by
  induction h with
  | blank h =>
    exact ⟨[], .nil, fun i j => ⟨nofun, fun hr => absurd (hr.solid i (Nat.le_refl i) hr.lt)
      h.not_solidAt⟩, rfl⟩
  | @word gap w rest ws hg hw hs _ ih =>
    obtain ⟨spans, hapart, hruns, hcut⟩ := ih
    let shift : Nat × Nat → Nat × Nat :=
      fun span => (gap.length + w.length + span.1, gap.length + w.length + span.2)
    refine ⟨(gap.length, gap.length + w.length) :: spans.map shift, ?_, fun i j => ?_, ?_⟩
    · refine .cons (fun span hmem => ?_) (.map shift (fun a b hab => ?_) hapart)
      · obtain ⟨⟨i, j⟩, hij, rfl⟩ := List.mem_map.1 hmem
        have hpos : 0 < i := ((hruns i j).1 hij).pos hs
        show gap.length + w.length < gap.length + w.length + i
        omega
      · show gap.length + w.length + a.2 < gap.length + w.length + b.1
        omega
    · rw [isRun_word_iff hg hw hs]
      simp only [List.mem_cons, List.mem_map, Prod.mk.injEq, Prod.exists, hruns, shift]
    · simp only [List.map_cons, List.map_map, cut_word, hcut]
      refine congrArg _ (List.map_congr_left fun span _ => ?_)
      exact cut_rest.symm

end SessionHost.Text

namespace SessionHost.Toolchain

open Text

/-! ## Command lines -/

/-- How a text is cut into words: they are its runs in order, none is empty and none has a blank in it,
and they can be put together with any gaps and cut again. -/
structure Cuts (text : String) : Prop where
  runs : ∃ spans, Apart spans ∧ (∀ i j, (i, j) ∈ spans ↔ IsRun text.toList i j) ∧
    splitArgs text = spans.map fun span => String.ofList (cut text.toList span)
  solid : ∀ w ∈ splitArgs text, Solid w.toList
  again : ∀ gap : Nat → String, (∀ n, Blank (gap n).toList ∧ gap n ≠ "") →
    splitArgs (joined gap (splitArgs text)) = splitArgs text
  append : ∀ gap other : String, Blank gap.toList → gap ≠ "" →
    splitArgs (text ++ gap ++ other) = splitArgs text ++ splitArgs other

/-- A command line in which a fixed part stands at the same places whatever text is given, and the words
of the text stand behind it. -/
structure Behind (fixed : List String) (line : String → List String) : Prop where
  eq_append : ∀ text, line text = fixed ++ splitArgs text
  fixed_at : ∀ text i, i < fixed.length → (line text)[i]? = fixed[i]?
  word_at : ∀ text i, (line text)[fixed.length + i]? = (splitArgs text)[i]?

/-- What is run for a build in a mode: the program and the fixed part of its command line are the same for
every text, and so is the directory, which is that of the build. -/
structure Runs (c : ToolchainConfig) (b : Build) (mode : Mode) (program : String)
    (fixed : List String) : Prop where
  program_eq : ∀ text, (launch c b mode text).program = program
  behind : Behind fixed fun text => (launch c b mode text).args
  cwd : ∀ text, (launch c b mode text).cwd = some b.directory
  scratch : ∀ text, (launch c b mode text).scratch = some b.place

theorem cuts (text : String) : Cuts text := by
  have hholds : Holds text.toList ((splitArgs text).map String.toList) := holds_iff.2 rfl
  have hsolid : ∀ w ∈ splitArgs text, Solid w.toList :=
    fun w hw => hholds.solid_of_mem _ (List.mem_map_of_mem hw)
  obtain ⟨spans, hapart, hruns, hcut⟩ := hholds.exists_spans
  refine ⟨⟨spans, hapart, hruns, ?_⟩, hsolid, fun gap hgap => words_joined hgap hsolid,
    fun gap other hgap hne => words_append text other hgap hne⟩
  have hback := congrArg (List.map String.ofList) hcut
  simpa [Function.comp_def] using hback

theorem behind_of_eq {fixed : List String} {line : String → List String}
    (h : ∀ text, line text = fixed ++ splitArgs text) : Behind fixed line where
  eq_append := h
  fixed_at text i hi := by rw [h text, List.getElem?_append_left hi]
  word_at text i := by
    rw [h text, List.getElem?_append_right (Nat.le_add_right _ _), Nat.add_sub_cancel_left]

/-- The words of a user stand behind the fixed part of every command line. The words are the runs of
characters that are not blank; a compiler gets its source, its binary and the flag for debugging symbols,
which is there just when they are wanted, in front of them, a program nothing, and a debugger its own
options and the binary. What is built runs in the directory of its build. -/
theorem laid_out :
    (∀ text, Cuts text) ∧
    (∀ source binary withSymbols,
      Behind ([source, "-o", binary] ++ if withSymbols then ["-g"] else [])
        (compileArgs source binary withSymbols)) ∧
    ∀ (c : ToolchainConfig) (b : Build),
      Runs c b .text b.binary [] ∧ Runs c b .interactive b.binary [] ∧
      Runs c b .debugger c.gdb (c.gdbArgs ++ ["--args", b.binary]) := by
  refine ⟨cuts, fun source binary withSymbols => behind_of_eq fun text => rfl, fun c b => ⟨?_, ?_, ?_⟩⟩
  · exact ⟨fun _ => rfl, behind_of_eq fun _ => rfl, fun _ => rfl, fun _ => rfl⟩
  · exact ⟨fun _ => rfl, behind_of_eq fun _ => rfl, fun _ => rfl, fun _ => rfl⟩
  · exact ⟨fun _ => rfl, behind_of_eq fun _ => rfl, fun _ => rfl, fun _ => rfl⟩

-- a blank need not be one of the ASCII ones
example : splitArgs "\u2003-O2\u00a0 -Wall\n" = ["-O2", "-Wall"] := by decide +kernel

end SessionHost.Toolchain
