import Mathlib.Data.List.Basic

/-!
# Text operations of the standard library

The methods of `str` that the provisioning code rests on, over lists of characters.
-/

namespace Py

/-- `s.removeprefix(p)`. -/
def removeFront (s p : String) : String :=
  if p.toList.isPrefixOf s.toList then String.ofList (s.toList.drop p.toList.length) else s

/-- `s.lower()` for ASCII text. -/
def lower (s : String) : String := String.ofList (s.toList.map Char.toLower)

/-- `c.isspace()`. -/
def isSpace (c : Char) : Bool :=
  let n := c.toNat
  (9 ≤ n && n ≤ 13) || (28 ≤ n && n ≤ 32) || n == 0x85 || n == 0xa0 || n == 0x1680 ||
    (0x2000 ≤ n && n ≤ 0x200a) || n == 0x2028 || n == 0x2029 || n == 0x202f || n == 0x205f ||
    n == 0x3000

/-- The line boundaries of `splitlines`, apart from `\r\n`. -/
def isLineBreak (c : Char) : Bool :=
  let n := c.toNat
  (10 ≤ n && n ≤ 13) || (28 ≤ n && n ≤ 30) || n == 0x85 || n == 0x2028 || n == 0x2029

/-- `splitlines` of the rest of a text, behind the part of a line that is already read. -/
def splitLinesFrom (line : List Char) : List Char → List (List Char)
  | [] => if line = [] then [] else [line]
  | '\r' :: '\n' :: cs => line :: splitLinesFrom [] cs
  | c :: cs =>
    if isLineBreak c then line :: splitLinesFrom [] cs else splitLinesFrom (line ++ [c]) cs

/-- `s.splitlines()`. -/
def splitLines (s : String) : List String := (splitLinesFrom [] s.toList).map String.ofList

/-- `s.split()`: the maximal runs of characters that are not white space. -/
def split (s : String) : List String :=
  ((s.toList.splitOnP isSpace).filter (· ≠ [])).map String.ofList

/-- `bytes.decode("utf-8")`; `none` is a `UnicodeDecodeError`. -/
def decodeUtf8 (bytes : List UInt8) : Option String := String.fromUTF8? ⟨bytes.toArray⟩

/-- `s.encode("utf-8")`. -/
def encodeUtf8 (s : String) : List UInt8 := s.toByteArray.data.toList

theorem decodeUtf8_encodeUtf8 (s : String) : decodeUtf8 (encodeUtf8 s) = some s := by
  have hbytes : (⟨(encodeUtf8 s).toArray⟩ : ByteArray) = s.toByteArray := rfl
  rw [decodeUtf8, hbytes, String.fromUTF8?, dif_pos s.isValidUTF8]
  rfl

/-! ### Lines and words -/

/-- Lines of text, each with its end. -/
def unlines (lines : List String) : String :=
  String.ofList (lines.flatMap fun line => line.toList ++ ['\n'])

/-- A text that `split` takes for one word. -/
def IsWord (s : String) : Prop := s ≠ "" ∧ ∀ c ∈ s.toList, isSpace c = false

/-- Where a line ends, a word ends. -/
theorem isSpace_of_isLineBreak {c : Char} (h : isLineBreak c = true) : isSpace c = true := by
  simp only [isLineBreak, isSpace, Bool.or_eq_true, Bool.and_eq_true, decide_eq_true_eq,
    beq_iff_eq] at h ⊢
  omega

/-- A word lies within a line. -/
theorem IsWord.isLineBreak {s : String} (h : IsWord s) : ∀ c ∈ s.toList, isLineBreak c = false := by
  intro c hc
  by_contra hbreak
  rw [Bool.not_eq_false] at hbreak
  have hspace := isSpace_of_isLineBreak hbreak
  rw [h.2 c hc] at hspace
  cases hspace

/-- A line without a break inside is read up to its end. -/
theorem splitLinesFrom_line {cs : List Char} (h : ∀ c ∈ cs, isLineBreak c = false)
    (line rest : List Char) :
    splitLinesFrom line (cs ++ '\n' :: rest) = (line ++ cs) :: splitLinesFrom [] rest := by
  -- induction on the characters that are left; those before them have joined `line`
  induction cs generalizing line with
  | nil => simp [splitLinesFrom, isLineBreak]
  | cons c cs ih =>
    have hc : isLineBreak c = false := h c List.mem_cons_self
    have hcr : c ≠ '\r' := by
      rintro rfl
      cases hc
    have hstep : splitLinesFrom line (c :: (cs ++ '\n' :: rest)) =
        splitLinesFrom (line ++ [c]) (cs ++ '\n' :: rest) := by
      rw [splitLinesFrom, if_neg (by simp [hc])]
      exact fun _ hcr' => absurd hcr' hcr
    rw [List.cons_append, hstep, ih (fun c' hc' => h c' (List.mem_cons_of_mem _ hc'))]
    simp

/-- Lines that were put together are taken apart again. -/
theorem splitLines_unlines {lines : List String}
    (h : ∀ line ∈ lines, ∀ c ∈ line.toList, isLineBreak c = false) :
    splitLines (unlines lines) = lines := by
  rw [splitLines, unlines, String.toList_ofList]
  induction lines with
  | nil => rfl
  | cons line lines ih =>
    have hline := splitLinesFrom_line (h line List.mem_cons_self) []
      (lines.flatMap fun line => line.toList ++ ['\n'])
    rw [List.flatMap_cons, List.append_assoc, List.singleton_append, hline, List.map_cons,
      ih fun line' hl => h line' (List.mem_cons_of_mem _ hl)]
    simp

/-- Two words with two spaces between them. -/
theorem split_two_words {a b : String} (ha : IsWord a) (hb : IsWord b) :
    split (a ++ "  " ++ b) = [a, b] := by
  have htext : (a ++ "  " ++ b).toList = a.toList ++ ' ' :: ' ' :: b.toList := by
    simp [String.toList_append]
  have hempty {s : String} (hs : s ≠ "") : s.toList ≠ [] := by simpa using hs
  have hspace : isSpace ' ' = true := by decide
  -- nothing stands between the two spaces, and that is no word
  rw [split, htext, List.splitOnP_append_cons_of_forall_mem ha.2 ' ' hspace,
    List.splitOnP_cons_eq_if_modifyHead, if_pos hspace, List.splitOnP_eq_singleton hb.2]
  simp [ha.1, hb.1]

end Py
