/-!
# Blank characters and words

Blanks are the twenty-five characters with the property White_Space. The words of a text are its
maximal runs of other characters.

* `Text.isBlank_of_isWhitespace`: every character that core calls white space is blank.
-/
namespace SessionHost.Text

/-- The characters with the property White_Space. -/
def isBlank (c : Char) : Bool :=
  let n := c.toNat
  (9 ≤ n && n ≤ 13) || n == 0x20 || n == 0x85 || n == 0xA0 || n == 0x1680
    || (0x2000 ≤ n && n ≤ 0x200A) || n == 0x2028 || n == 0x2029 || n == 0x202F || n == 0x205F
    || n == 0x3000

theorem isBlank_of_isWhitespace {c : Char} (h : c.isWhitespace) : isBlank c := by
  simp only [Char.isWhitespace, Bool.or_eq_true, decide_eq_true_eq] at h
  rcases h with ((h | h) | h) | h <;> subst h <;> decide

/-- The text `s` without the blanks at its two ends. -/
def trim (s : String) : String :=
  String.ofList (((s.toList.dropWhile isBlank).reverse.dropWhile isBlank).reverse)

/-- Reads on with the word `word` begun and the words `done` behind it, both kept in reverse. -/
def wordsFrom (done : List String) (word : List Char) : List Char → List String
  | [] => (if word.isEmpty then done else String.ofList word.reverse :: done).reverse
  | c :: rest =>
    if isBlank c then
      wordsFrom (if word.isEmpty then done else String.ofList word.reverse :: done) [] rest
    else wordsFrom done (c :: word) rest

/-- The maximal runs of characters that are not blank, in order. -/
def words (s : String) : List String := wordsFrom [] [] s.toList

/-- Upper-case ASCII letters made lower case; no other character changes. -/
def lowerAscii (s : String) : String :=
  String.ofList (s.toList.map fun c =>
    if 'A' ≤ c ∧ c ≤ 'Z' then Char.ofNat (c.toNat + 32) else c)

end SessionHost.Text
