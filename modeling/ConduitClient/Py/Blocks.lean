import Mathlib.Data.List.SplitBy

/-!
# Text in labelled blocks

A text that consists of blocks, joined by line breaks. Each block but the first begins with a
label, and any block may go on over more lines. `blocks` finds the blocks again, which it can
when no line on which a block goes on begins with a label (`blocks_joinLines`). `valueOf` then
reads what stands behind a label (`valueOf_fieldBlocks`).
-/

namespace Py

/-- `text.split("\n")` -/
def lines (text : List Char) : List (List Char) := text.splitOn '\n'

/-- `"\n".join(lines)` -/
def joinLines (ls : List (List Char)) : List Char := ['\n'].intercalate ls

variable (labels : List (List Char))

def isLabelled (line : List Char) : Bool := labels.any (·.isPrefixOf line)

/-- The blocks of a text. A line with a label begins a new one. -/
def blocks (text : List Char) : List (List Char) :=
  ((lines text).splitBy fun _ line => !isLabelled labels line).map joinLines

/-- No line after the first has a label. -/
def Continues (text : List Char) : Prop :=
  ∀ line ∈ (lines text).tail, isLabelled labels line = false

instance (text : List Char) : Decidable (Continues labels text) :=
  inferInstanceAs (Decidable (∀ line ∈ (lines text).tail, _))

/-- The first line has a label. -/
def Begins (text : List Char) : Prop :=
  ∃ line rest, lines text = line :: rest ∧ isLabelled labels line = true

/-- The blocks of the fields that are not empty, label first. -/
def fieldBlocks (fields : List (List Char × List Char)) : List (List Char) :=
  (fields.filter fun f => f.2 ≠ []).map fun f => f.1 ++ f.2

/-- What stands behind the label in the first block that has it, if there is one. -/
def valueOf (label : List Char) (bs : List (List Char)) : List Char :=
  ((bs.find? label.isPrefixOf).getD []).drop label.length

variable {labels}

/-! ### Lines -/

theorem lines_ne_nil (text : List Char) : lines text ≠ [] := List.splitOn_ne_nil _ _

theorem joinLines_lines (text : List Char) : joinLines (lines text) = text :=
  List.intercalate_splitOn '\n'

/-- The lines of a text are those of its parts. -/
theorem lines_joinLines (b : List Char) (bs : List (List Char)) :
    lines (joinLines (b :: bs)) = (b :: bs).flatMap lines := by
  induction bs generalizing b with
  | nil => rw [joinLines, List.intercalate_singleton, List.flatMap_singleton]
  | cons c bs ih =>
    have hjoin : joinLines (b :: c :: bs) = b ++ '\n' :: joinLines (c :: bs) := by
      rw [joinLines, List.intercalate_cons_cons, List.append_assoc]
      rfl
    have hsplit : lines (b ++ '\n' :: joinLines (c :: bs)) =
        lines b ++ lines (joinLines (c :: bs)) := List.splitOn_append_cons_self _ _
    rw [hjoin, hsplit, ih]
    rfl

/-- Text on one line in front of a text goes to its first line. -/
theorem lines_append {pre : List Char} (hpre : '\n' ∉ pre) (text : List Char) :
    lines (pre ++ text) = (lines text).modifyHead (pre ++ ·) := by
  induction pre with
  | nil =>
    rw [List.nil_append]
    cases h : lines text with
    | nil => rfl
    | cons line rest => rfl
  | cons c pre ih =>
    have hc : ¬ (c == '\n') = true := by
      rintro h
      exact hpre (beq_iff_eq.mp h ▸ List.mem_cons_self)
    have hrest := ih fun h => hpre (List.mem_cons_of_mem c h)
    rw [List.cons_append, lines, List.splitOn_cons_eq_if_modifyHead, if_neg hc, ← lines, hrest]
    cases lines text with
    | nil => rfl
    | cons line rest => rfl

theorem tail_lines_append {pre : List Char} (hpre : '\n' ∉ pre) (text : List Char) :
    (lines (pre ++ text)).tail = (lines text).tail := by
  rw [lines_append hpre]
  cases lines text <;> rfl

/-! ### Blocks -/

/-- A block with a label behind which a text stands. -/
theorem begins_append {label : List Char} (hl : label ∈ labels) (hbreak : '\n' ∉ label)
    (text : List Char) : Begins labels (label ++ text) := by
  have hlines := lines_append hbreak text
  cases h : lines text with
  | nil => exact absurd h (lines_ne_nil text)
  | cons line rest =>
    refine ⟨label ++ line, rest, by rw [hlines, h]; rfl, ?_⟩
    refine List.any_eq_true.mpr ⟨label, hl, ?_⟩
    exact List.isPrefixOf_iff_prefix.mpr (List.prefix_append _ _)

theorem Continues.append {pre text : List Char} (h : Continues labels text)
    (hpre : '\n' ∉ pre) : Continues labels (pre ++ text) := by
  rw [Continues, tail_lines_append hpre]
  exact h

/-- A list is a chain when each element is related to all that come after the first. -/
theorem isChain_of_tail {α : Type} {R : α → α → Prop} {l : List α}
    (h : ∀ a ∈ l, ∀ b ∈ l.tail, R a b) : l.IsChain R := by
  induction l with
  | nil => exact .nil
  | cons a l ih =>
    refine List.isChain_cons.mpr ⟨fun b hb => ?_, ih fun c hc d hd => ?_⟩
    · exact h a List.mem_cons_self b (List.mem_of_mem_head? hb)
    · exact h c (List.mem_cons_of_mem a hc) d (List.mem_of_mem_tail hd)

/-- **Blocks are found again.** -/
theorem blocks_joinLines {b : List Char} {bs : List (List Char)}
    (hall : ∀ x ∈ b :: bs, Continues labels x) (hbegin : ∀ x ∈ bs, Begins labels x) :
    blocks labels (joinLines (b :: bs)) = b :: bs := by
  have hsplit : ((b :: bs).map lines).flatten.splitBy (fun _ line => !isLabelled labels line) =
      (b :: bs).map lines := by
    refine List.splitBy_flatten ?_ (fun ls hls => ?_) ?_
    · -- no block is without lines
      intro hnil
      obtain ⟨x, -, hx⟩ := List.mem_map.mp hnil
      exact lines_ne_nil x hx
    · -- within a block, no line after the first has a label
      obtain ⟨x, hx, rfl⟩ := List.mem_map.mp hls
      refine isChain_of_tail fun _ _ line hline => ?_
      rw [hall x hx line hline, Bool.not_false]
    · -- the first line of every block but the first has one
      refine isChain_of_tail fun ls hls ls' hls' => ?_
      obtain ⟨x, -, rfl⟩ := List.mem_map.mp hls
      rw [List.map_cons, List.tail_cons] at hls'
      obtain ⟨y, hy, rfl⟩ := List.mem_map.mp hls'
      obtain ⟨line, rest, hlines, hlabel⟩ := hbegin y hy
      refine ⟨lines_ne_nil x, lines_ne_nil y, ?_⟩
      have hhead : (lines y).head (lines_ne_nil y) = line := by
        simp only [hlines, List.head_cons]
      rw [hhead, hlabel, Bool.not_true]
  rw [blocks, lines_joinLines, List.flatMap_def, hsplit, List.map_map]
  -- each group of lines is put together to the block that it came from
  have hid : ∀ x ∈ b :: bs, (joinLines ∘ lines) x = x := fun x _ => joinLines_lines x
  rw [List.map_congr_left hid, List.map_id']

/-! ### Fields -/

/-- Neither label is the beginning of the other. -/
def Apart (l l' : List Char) : Prop := ¬ l <+: l' ∧ ¬ l' <+: l

instance (l l' : List Char) : Decidable (Apart l l') := inferInstanceAs (Decidable (_ ∧ _))

/-- A label is not found in front of what has another one. -/
theorem Apart.isPrefixOf {l l' : List Char} (h : Apart l l') (text : List Char) :
    l.isPrefixOf (l' ++ text) = false := by
  refine eq_false_of_ne_true fun hpre => ?_
  rcases List.prefix_or_prefix_of_prefix (List.isPrefixOf_iff_prefix.mp hpre)
    (List.prefix_append l' text) with h' | h'
  · exact h.1 h'
  · exact h.2 h'

theorem fieldBlocks_cons (f : List Char × List Char) (fields : List (List Char × List Char)) :
    fieldBlocks (f :: fields) =
      if f.2 = [] then fieldBlocks fields else (f.1 ++ f.2) :: fieldBlocks fields := by
  rw [fieldBlocks, List.filter_cons]
  by_cases hf : f.2 = [] <;> simp [hf, fieldBlocks]

theorem mem_fieldBlocks {fields : List (List Char × List Char)} {b : List Char}
    (h : b ∈ fieldBlocks fields) : ∃ f ∈ fields, b = f.1 ++ f.2 := by
  obtain ⟨f, hf, rfl⟩ := List.mem_map.mp h
  exact ⟨f, List.mem_of_mem_filter hf, rfl⟩

/-- No block has a label that no field has. -/
theorem valueOf_of_apart {label : List Char} {fields : List (List Char × List Char)}
    (h : ∀ f ∈ fields, Apart label f.1) : valueOf label (fieldBlocks fields) = [] := by
  have hnone : (fieldBlocks fields).find? label.isPrefixOf = none := by
    refine List.find?_eq_none.mpr fun b hb => ?_
    obtain ⟨f, hf, rfl⟩ := mem_fieldBlocks hb
    rw [(h f hf).isPrefixOf]
    exact Bool.false_ne_true
  rw [valueOf, hnone]
  exact List.drop_nil

/-- **Fields are read back**, when their labels are apart. -/
theorem valueOf_fieldBlocks {fields : List (List Char × List Char)}
    (h : (fields.map Prod.fst).Pairwise Apart) {f : List Char × List Char} (hf : f ∈ fields) :
    valueOf f.1 (fieldBlocks fields) = f.2 := by
  induction fields with
  | nil => cases hf
  | cons g fields ih =>
    rw [List.map_cons, List.pairwise_cons] at h
    rw [fieldBlocks_cons]
    rcases List.mem_cons.mp hf with rfl | hf
    · -- this is the field; an empty one is not there
      by_cases hempty : f.2 = []
      · rw [if_pos hempty, hempty]
        exact valueOf_of_apart fun g hg => h.1 g.1 (List.mem_map_of_mem hg)
      · have hpre : f.1.isPrefixOf (f.1 ++ f.2) = true :=
          List.isPrefixOf_iff_prefix.mpr (List.prefix_append _ _)
        rw [if_neg hempty, valueOf, List.find?_cons_of_pos hpre]
        exact List.drop_left
    · -- another field comes first, and its label is not taken for this one
      by_cases hempty : g.2 = []
      · rw [if_pos hempty]
        exact ih h.2 hf
      · have hapart : Apart f.1 g.1 := (h.1 f.1 (List.mem_map_of_mem hf)).symm
        have hnot : ¬ f.1.isPrefixOf (g.1 ++ g.2) = true := by
          rw [hapart.isPrefixOf]
          exact Bool.false_ne_true
        rw [if_neg hempty, valueOf, List.find?_cons_of_neg hnot]
        exact ih h.2 hf

end Py
