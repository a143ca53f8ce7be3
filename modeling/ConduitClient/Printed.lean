import ConduitClient.Details
import ConduitClient.Py.Blocks

/-!
# What an error prints

A `ConduitError` that nobody catches is seen as its `str`: the code and the message, and each
structured field that is present on a line of its own. `Printed.read` reads that text back. It
finds every field again, and for an absent one the empty string, unless some line inside a field
looks like the beginning of another (`ConduitError.read_toStr`).
-/

namespace Conduit

open Py

/-- What of an error is printed. -/
structure Printed where
  code : String
  message : String
  configPath : String
  suggestion : String
  docsUrl : String
  pipelineId : String
  deriving DecidableEq

def ConduitError.printed (e : ConduitError) : Printed where
  code := e.code
  message := e.message
  configPath := e.configPath
  suggestion := e.suggestion
  docsUrl := e.docsUrl
  pipelineId := e.pipelineId

namespace Printed

def configPathLabel : String := "  config path: "

def suggestionLabel : String := "  suggestion: "

def docsLabel : String := "  docs: "

def pipelineIdLabel : String := "  pipeline id (already created): "

def labels : List (List Char) :=
  [configPathLabel, suggestionLabel, docsLabel, pipelineIdLabel].map String.toList

/-- Read a printed error. -/
def read (text : String) : Printed :=
  let bs := blocks labels text.toList
  let header := bs.headD []
  let value (label : String) : String := String.ofList (valueOf label.toList bs.tail)
  { code := String.ofList ((header.drop 1).takeWhile (· ≠ ']'))
    message := String.ofList (((header.drop 1).dropWhile (· ≠ ']')).drop 2)
    configPath := value configPathLabel
    suggestion := value suggestionLabel
    docsUrl := value docsLabel
    pipelineId := value pipelineIdLabel }

/-- The labelled fields, in the order in which they are printed. -/
def fields (p : Printed) : List (List Char × List Char) :=
  [(configPathLabel.toList, p.configPath.toList), (suggestionLabel.toList, p.suggestion.toList),
    (docsLabel.toList, p.docsUrl.toList), (pipelineIdLabel.toList, p.pipelineId.toList)]

end Printed

/-- No line inside of a field looks like the beginning of another, and the code is one line
without a bracket. -/
structure ConduitError.Clear (e : ConduitError) : Prop where
  code : '\n' ∉ e.code.toList ∧ ']' ∉ e.code.toList
  message : Continues Printed.labels e.message.toList
  fields : ∀ f ∈ e.printed.fields, Continues Printed.labels f.2

namespace Printed

theorem labels_apart : labels.Pairwise Apart := by decide

theorem labels_oneLine : ∀ l ∈ labels, '\n' ∉ l := by decide

theorem map_fst_fields (p : Printed) : p.fields.map Prod.fst = labels := rfl

end Printed

namespace ConduitError

variable (e : ConduitError)

/-- The first line that is printed, and the lines on which the message goes on. -/
def header : List Char := '[' :: (e.code.toList ++ ']' :: ' ' :: e.message.toList)

/-- A line of `__str__` is the block of its field. -/
theorem toList_line (label value : String) (rest : List (List Char × List Char)) :
    (if value = "" then [] else [label ++ value]).map String.toList ++ fieldBlocks rest =
      fieldBlocks ((label.toList, value.toList) :: rest) := by
  rw [fieldBlocks_cons]
  by_cases h : value = ""
  · rw [if_pos h, if_pos (by rw [h]; rfl)]
    rfl
  · have hne : value.toList ≠ [] := fun hnil => h (String.toList_inj.mp hnil)
    rw [if_neg h, if_neg hne, List.map_singleton, String.toList_append]
    rfl

theorem toList_header : ("[" ++ e.code ++ "] " ++ e.message).toList = e.header := by
  rw [String.toList_append, String.toList_append, String.toList_append, header, List.append_assoc,
    List.append_assoc]
  rfl

/-- The printed text consists of blocks. -/
theorem toList_toStr :
    e.toStr.toList = joinLines (e.header :: fieldBlocks e.printed.fields) := by
  rw [toStr, String.toList_intercalate, Printed.fields, ← toList_line, ← toList_line,
    ← toList_line, ← toList_line, ← toList_header]
  have hnone : fieldBlocks [] = [] := rfl
  simp only [List.map_append, List.append_assoc, hnone, List.append_nil]
  rfl

variable {e}

theorem Clear.continues_header (h : e.Clear) : Continues Printed.labels e.header := by
  have hpre : '\n' ∉ '[' :: (e.code.toList ++ [']', ' ']) := by
    simp [h.code.1]
  have hheader : e.header = '[' :: (e.code.toList ++ [']', ' ']) ++ e.message.toList := by
    simp [header]
  rw [hheader]
  exact h.message.append hpre

/-- The blocks of a printed error. -/
theorem Clear.blocks_toStr (h : e.Clear) :
    blocks Printed.labels e.toStr.toList = e.header :: fieldBlocks e.printed.fields := by
  -- every block but the first is a label and a field
  have hblock {b : List Char} (hb : b ∈ fieldBlocks e.printed.fields) :
      ∃ f ∈ e.printed.fields, b = f.1 ++ f.2 ∧ f.1 ∈ Printed.labels := by
    obtain ⟨f, hf, rfl⟩ := mem_fieldBlocks hb
    refine ⟨f, hf, rfl, ?_⟩
    rw [← e.printed.map_fst_fields]
    exact List.mem_map_of_mem hf
  rw [toList_toStr]
  refine blocks_joinLines (fun b hb => ?_) fun b hb => ?_
  · rcases List.mem_cons.mp hb with rfl | hb
    · exact h.continues_header
    · obtain ⟨f, hf, rfl, hlabel⟩ := hblock hb
      exact (h.fields f hf).append (Printed.labels_oneLine _ hlabel)
  · obtain ⟨f, hf, rfl, hlabel⟩ := hblock hb
    exact begins_append hlabel (Printed.labels_oneLine _ hlabel) f.2

theorem Clear.value (h : e.Clear) {label value : String}
    (hf : (label.toList, value.toList) ∈ e.printed.fields) :
    String.ofList (valueOf label.toList (blocks Printed.labels e.toStr.toList).tail) = value := by
  have hapart : (e.printed.fields.map Prod.fst).Pairwise Apart := by
    rw [e.printed.map_fst_fields]
    exact Printed.labels_apart
  rw [h.blocks_toStr, List.tail_cons, valueOf_fieldBlocks hapart hf, String.ofList_toList]

/-- The code is what stands between the brackets, and the message what comes behind them. -/
theorem Clear.split_header (h : e.Clear) :
    (e.header.drop 1).takeWhile (· ≠ ']') = e.code.toList ∧
      ((e.header.drop 1).dropWhile (· ≠ ']')).drop 2 = e.message.toList := by
  have hcode : ∀ c ∈ e.code.toList, decide (c ≠ ']') = true := by
    intro c hc
    refine decide_eq_true fun hbracket => h.code.2 ?_
    exact hbracket ▸ hc
  rw [header, List.drop_succ_cons, List.drop_zero]
  constructor
  · rw [List.takeWhile_append_of_pos hcode]
    exact List.append_nil _
  · rw [List.dropWhile_append_of_pos hcode]
    rfl

/-- **A printed error is read back**, every field of it. -/
theorem read_toStr (h : e.Clear) : Printed.read e.toStr = e.printed := by
  have hheader : (blocks Printed.labels e.toStr.toList).headD [] = e.header := by
    rw [h.blocks_toStr, List.headD_cons]
  obtain ⟨hcode, hmessage⟩ := h.split_header
  rw [Printed.read, hheader]
  simp only [hcode, hmessage, String.ofList_toList]
  rw [h.value List.mem_cons_self, h.value (List.mem_cons_of_mem _ List.mem_cons_self),
    h.value (List.mem_cons_of_mem _ (List.mem_cons_of_mem _ List.mem_cons_self)),
    h.value (List.mem_cons_of_mem _ (List.mem_cons_of_mem _ (List.mem_cons_of_mem _
      List.mem_cons_self)))]
  rfl

/-- An error that was raised after a pipeline was created, with a message of several lines. -/
def refusedConnector : ConduitError where
  message := "invalid connector\n  - no plugin\n  - no name"
  code := "connector.invalid_config"
  grpcStatusCode := .invalidArgument
  configPath := "/connectors/0"
  pipelineId := "p1"

theorem read_toStr_refusedConnector :
    Printed.read refusedConnector.toStr = refusedConnector.printed :=
  read_toStr ⟨by decide +kernel, by decide +kernel, by decide +kernel⟩

/-- A message that looks like a field is read as one. -/
example : toStr { message := "refused\n  docs: none" } =
    toStr { message := "refused", docsUrl := "none" } := by
  decide +kernel

end ConduitError

end Conduit
