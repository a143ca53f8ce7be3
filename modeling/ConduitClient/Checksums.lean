import ConduitClient.Provision

/-!
# The checksums of a release

`_verify_checksum` is the only gate between a download and a binary that is executed. It reads
`checksums.txt` line by line and stops at the first line of two words of which the second is
the archive's name.

`verifyChecksum_spec` says both what a verified archive has behind it, for every text, and
that nothing goes wrong on the texts that a release is published with: these are the printed
`ChecksumsFile`s, and reading one back finds exactly its entries.
-/

namespace Conduit

open Py

/-! ### One line -/

/-- The digest on a line, if it is a line for this name. -/
def lineDigest (name line : String) : Option String :=
  match split line with
  | [digest, file] => if file = name then some digest else none
  | _ => none

theorem lineDigest_eq_some_iff {name line digest : String} :
    lineDigest name line = some digest ↔ split line = [digest, name] := by
  unfold lineDigest
  cases hwords : split line with
  | nil => simp
  | cons a words =>
    -- two words, or fewer, or more
    cases words with
    | nil => simp
    | cons b words =>
      cases words with
      | nil => by_cases hb : b = name <;> simp [hb]
      | cons c words => simp

theorem lineDigest_eq_none_iff {name line : String} :
    lineDigest name line = none ↔ ∀ digest, split line ≠ [digest, name] := by
  rw [Option.eq_none_iff_forall_ne_some]
  exact forall_congr' fun digest => not_congr lineDigest_eq_some_iff

/-- The lines are searched in order. -/
theorem listedDigest_eq {checksums : Bytes} {text : String} (name : String)
    (h : decodeUtf8 checksums = some text) :
    listedDigest checksums name = .ok ((splitLines text).findSome? (lineDigest name)) := by
  rw [listedDigest, h]
  rfl

/-- Checksums that list something, or nothing, are a text. -/
theorem isSome_of_listed {checksums : Bytes} {name : String} {listed : Option String}
    (h : listedDigest checksums name = .ok listed) : (decodeUtf8 checksums).isSome := by
  cases ht : decodeUtf8 checksums with
  | none =>
    rw [listedDigest, ht] at h
    cases h
  | some text => rfl

/-- What is listed is on the first line for the name. -/
theorem findSome?_lineDigest_iff {lines : List String} {name digest : String} :
    lines.findSome? (lineDigest name) = some digest ↔
      ∃ before line after, lines = before ++ line :: after ∧ split line = [digest, name] ∧
        ∀ l ∈ before, ∀ other, split l ≠ [other, name] := by
  rw [List.findSome?_eq_some_iff]
  simp only [lineDigest_eq_some_iff, lineDigest_eq_none_iff]

/-! ### The verdict -/

/-- An archive is verified by the digest that is listed, or rejected with one code, or the
checksums are no text. -/
theorem verifyChecksum_cases (tools : Toolbox) (archive checksums : Bytes) (name : String) :
    (verifyChecksum tools archive checksums name = .ok () ∧
        listedDigest checksums name = .ok (some (tools.sha256 archive))) ∨
      (∃ err listed, verifyChecksum tools archive checksums name = .error (.conduit err) ∧
        err.code = "client.checksum_mismatch" ∧ listedDigest checksums name = .ok listed ∧
        listed ≠ some (tools.sha256 archive)) ∨
      (verifyChecksum tools archive checksums name = .error .unicode ∧
        decodeUtf8 checksums = none) := by
  unfold verifyChecksum
  cases ht : decodeUtf8 checksums with
  | none =>
    have hl : listedDigest checksums name = .error .unicode := by rw [listedDigest, ht]
    rw [hl]
    exact Or.inr (Or.inr ⟨rfl, rfl⟩)
  | some text =>
    rw [listedDigest_eq name ht]
    cases (splitLines text).findSome? (lineDigest name) with
    -- the asset is not listed at all
    | none => exact Or.inr (Or.inl ⟨_, none, rfl, rfl, rfl, by simp⟩)
    | some expected =>
      -- it is listed, and the digests are compared
      by_cases he : tools.sha256 archive = expected
      · refine Or.inl ⟨?_, by rw [he]⟩
        exact if_neg (not_not_intro he)
      · refine Or.inr (Or.inl ⟨_, some expected, if_pos he, rfl, rfl, fun heq => he ?_⟩)
        exact (Option.some.inj heq).symm

theorem verifyChecksum_ok_iff {tools : Toolbox} {archive checksums : Bytes} {name : String} :
    verifyChecksum tools archive checksums name = .ok () ↔
      listedDigest checksums name = .ok (some (tools.sha256 archive)) := by
  rcases verifyChecksum_cases tools archive checksums name with
    ⟨hv, hl⟩ | ⟨err, listed, hv, -, hl, hne⟩ | ⟨hv, ht⟩
  · exact iff_of_true hv hl
  · rw [hv, hl]
    exact iff_of_false (by simp) fun heq => hne (Except.ok.inj heq)
  · rw [hv, listedDigest, ht]
    exact iff_of_false (by simp) (by simp)

/-- A text that lists another digest, or none, is no reason to trust the archive. -/
theorem verifyChecksum_rejects {tools : Toolbox} {archive checksums : Bytes} {name : String}
    {listed : Option String} (h : listedDigest checksums name = .ok listed)
    (hne : listed ≠ some (tools.sha256 archive)) :
    ∃ err, verifyChecksum tools archive checksums name = .error (.conduit err) ∧
      err.code = "client.checksum_mismatch" := by
  rcases verifyChecksum_cases tools archive checksums name with
    ⟨-, hl⟩ | ⟨err, -, hv, hcode, -⟩ | ⟨-, ht⟩
  · exact absurd (Except.ok.inj (h.symm.trans hl)) hne
  · exact ⟨err, hv, hcode⟩
  · rw [listedDigest, ht] at h
    cases h

/-- An archive that is not verified is not opened. -/
theorem verified_error {tools : Toolbox} {archive checksums : Bytes} {name : String} {e : Exn}
    (host : Machine) (h : verifyChecksum tools archive checksums name = .error e) :
    Provision.verified tools host name archive checksums = .error e := by
  rw [Provision.verified, h]
  rfl

/-! ### Published files -/

/-- A digest as `hexdigest` writes it. -/
def IsHexDigest (s : String) : Prop :=
  s ≠ "" ∧ ∀ c ∈ s.toList, ('0' ≤ c ∧ c ≤ '9') ∨ ('a' ≤ c ∧ c ≤ 'f')

/-- A digest is one word. -/
theorem IsHexDigest.isWord {s : String} (h : IsHexDigest s) : IsWord s := by
  refine ⟨h.1, fun c hc => ?_⟩
  have hrange : (48 ≤ c.toNat ∧ c.toNat ≤ 57) ∨ (97 ≤ c.toNat ∧ c.toNat ≤ 102) := h.2 c hc
  simp only [isSpace, Bool.or_eq_false_iff, Bool.and_eq_false_iff, decide_eq_false_iff_not,
    beq_eq_false_iff_ne]
  omega

/-- The entries of a `checksums.txt`: digests and the names of the files they are of. -/
structure ChecksumsFile where
  entries : List (String × String)
  digests : ∀ e ∈ entries, IsHexDigest e.1
  names : ∀ e ∈ entries, IsWord e.2
  distinct : (entries.map Prod.snd).Nodup

namespace ChecksumsFile

/-- The line of an entry. -/
def line (e : String × String) : String := e.1 ++ "  " ++ e.2

/-- The file as it is published. -/
def text (file : ChecksumsFile) : String := unlines (file.entries.map line)

variable (file : ChecksumsFile)

theorem split_line {e : String × String} (he : e ∈ file.entries) : split (line e) = [e.1, e.2] :=
  split_two_words (file.digests e he).isWord (file.names e he)

/-- The lines of the file are the lines of its entries. -/
theorem splitLines_text : splitLines file.text = file.entries.map line := by
  refine splitLines_unlines fun l hl c hc => ?_
  obtain ⟨e, he, rfl⟩ := List.mem_map.mp hl
  rw [line, String.toList_append, String.toList_append, List.mem_append, List.mem_append] at hc
  rcases hc with (hc | hc) | hc
  · exact (file.digests e he).isWord.isLineBreak c hc
  · -- the two spaces end no line
    obtain rfl : c = ' ' := by simpa using hc
    decide
  · exact (file.names e he).isLineBreak c hc

/-- An entry of its name is found wherever it stands, because no other has this name. -/
theorem findSome?_text_iff (name digest : String) :
    (splitLines file.text).findSome? (lineDigest name) = some digest ↔
      (digest, name) ∈ file.entries := by
  rw [splitLines_text, findSome?_lineDigest_iff]
  constructor
  · rintro ⟨before, l, after, hlines, hwords, -⟩
    have hl : l ∈ file.entries.map line := by rw [hlines]; simp
    obtain ⟨e, he, rfl⟩ := List.mem_map.mp hl
    rw [file.split_line he] at hwords
    obtain ⟨rfl, rfl⟩ : e.1 = digest ∧ e.2 = name := by simpa using hwords
    exact he
  · intro he
    obtain ⟨before, after, hentries⟩ := List.append_of_mem he
    refine ⟨before.map line, line (digest, name), after.map line, by simp [hentries],
      file.split_line he, ?_⟩
    -- a line of the same name before it would be an entry of the same name
    intro l hl other hwords
    obtain ⟨e, hmem, rfl⟩ := List.mem_map.mp hl
    have hentry : e ∈ file.entries := by rw [hentries]; exact List.mem_append_left _ hmem
    rw [file.split_line hentry] at hwords
    obtain ⟨-, rfl⟩ : e.1 = other ∧ e.2 = name := by simpa using hwords
    have hdistinct := file.distinct
    rw [hentries, List.map_append, List.map_cons] at hdistinct
    exact (List.nodup_middle.mp hdistinct).notMem
      (List.mem_append_left _ (List.mem_map.mpr ⟨e, hmem, rfl⟩))

end ChecksumsFile

/-- **The gate.** Whatever the text says, an archive passes exactly when its digest is on a line
of two words before which no line of two words is for its name. From a published file it passes
exactly when its digest and its name are an entry, and is rejected otherwise. -/
theorem verifyChecksum_spec (tools : Toolbox) (archive : Bytes) (name : String) :
    (∀ checksums text, decodeUtf8 checksums = some text →
      (verifyChecksum tools archive checksums name = .ok () ↔
        ∃ before line after, splitLines text = before ++ line :: after ∧
          split line = [tools.sha256 archive, name] ∧
          ∀ l ∈ before, ∀ digest, split l ≠ [digest, name])) ∧
      ∀ file : ChecksumsFile,
        (verifyChecksum tools archive (encodeUtf8 file.text) name = .ok () ↔
          (tools.sha256 archive, name) ∈ file.entries) ∧
        ((tools.sha256 archive, name) ∉ file.entries →
          ∃ err, verifyChecksum tools archive (encodeUtf8 file.text) name =
              .error (.conduit err) ∧ err.code = "client.checksum_mismatch") := by
  constructor
  · intro checksums text htext
    rw [verifyChecksum_ok_iff, listedDigest_eq name htext, Except.ok.injEq]
    exact findSome?_lineDigest_iff
  · intro file
    have hlisted := listedDigest_eq name (decodeUtf8_encodeUtf8 file.text)
    have hentry := file.findSome?_text_iff name (tools.sha256 archive)
    refine ⟨?_, fun hnot => ?_⟩
    · rw [verifyChecksum_ok_iff, hlisted, Except.ok.injEq, hentry]
    · exact verifyChecksum_rejects hlisted fun heq => hnot (hentry.mp heq)

end Conduit
