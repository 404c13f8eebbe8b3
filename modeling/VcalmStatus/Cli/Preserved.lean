import VcalmStatus.Cli.Provisioning

/-!
What an append does to the bytes of a file. The source reads the file, and then it writes once: it
appends to what it has read, and where it has read nothing it writes the file anew, for whatever
reason that is.
-/

namespace VcalmStatus

open Js

namespace Provisioning

/-- The one write of an append. `writeFile` truncates what there is. -/
inductive FileWrite
  | writeFile (text : String)
  | appendFile (text : String)

/-- The text of an append to these contents. -/
def separated (contents block : String) : String :=
  (if "\n".toList.isSuffixOf contents.toList || contents = "" then "\n" else "\n\n") ++ block

variable (locale : Locale)

/-- What `appendEnvBlock` writes and returns, by what reading the file gave. -/
def appendWrite (path block : String) (options : AppendOptions) (readFile : Option String) :
    Except ProvisioningError (FileWrite × EnvFileWrite) :=
  match readFile with
  | none => .ok (.writeFile (newFileHeader ++ "\n" ++ block),
      { path, created := true, baseUrl := none })
  | some contents =>
      if options.tenantId ≠ "" && hasTenant locale contents options.tenantId &&
          options.force ≠ some true then
        let suffix := locale.toUpperCase options.tenantId
        .error ⟨s!"{path} already has a TENANT_TOKEN_{suffix}. Remove it, or pass --force to append a second block that will shadow it."⟩
      else
        .ok (.appendFile (separated contents block),
          { path, created := false, baseUrl := baseUrlFromEnvFile contents })

/-! ### On texts and on bytes -/

/-- The text of a file after a write. -/
def FileWrite.onText (contents : Option String) : FileWrite → String
  | .writeFile text => text
  | .appendFile text => contents.getD "" ++ text

def utf8 (s : String) : List UInt8 := s.toList.flatMap String.utf8EncodeChar

/-- The bytes of a file after a write. -/
def FileWrite.onBytes (bytes : Option (List UInt8)) : FileWrite → List UInt8
  | .writeFile text => utf8 text
  | .appendFile text => bytes.getD [] ++ utf8 text

theorem utf8_append (s t : String) : utf8 (s ++ t) = utf8 s ++ utf8 t := by
  simp [utf8]

/-- On a file of text the append is the one write. -/
theorem appendEnvBlock_eq_write (path block : String) (options : AppendOptions)
    (file : EnvFileState) :
    appendEnvBlock locale path block options file =
      match appendWrite locale path block options file.readFile with
      | .error e => { result := .error e, contents := file.contents }
      | .ok (write, returned) =>
          { result := .ok returned, contents := some (write.onText file.contents) } := by
  unfold appendEnvBlock appendWrite
  cases hread : file.readFile with
  | none => rfl
  | some contents =>
      have hcontents := file.readFile_contents contents hread
      dsimp only
      split
      · rfl
      · simp [FileWrite.onText, separated, hcontents, String.append_assoc]

/-! ### A file of bytes -/

/-- The file at a path: its bytes, if it is there, and the text that reading it gives. Bytes that
are no UTF-8 are read as something else than they are, and reading a file that is there can fail. -/
structure StoredFile where
  bytes : Option (List UInt8)
  readFile : Option String
  isSome_of_readFile : ∀ text, readFile = some text → bytes.isSome = true

/-- What an append comes to: its result, and the bytes the file has after it. -/
structure StoredOutcome where
  result : Except ProvisioningError EnvFileWrite
  bytes : Option (List UInt8)

/-- `appendEnvBlock` where the file can be written. -/
def appendToStored (path block : String) (options : AppendOptions) (file : StoredFile) :
    StoredOutcome :=
  match appendWrite locale path block options file.readFile with
  | .error e => { result := .error e, bytes := file.bytes }
  | .ok (write, returned) => { result := .ok returned, bytes := some (write.onBytes file.bytes) }

/-- What is written after these bytes begins a line. -/
def BeginsLine (bytes : List UInt8) : Prop := bytes = [] ∨ bytes.getLast? = some 0x0A

/-- Nothing of the file is lost: an append that resolves keeps all of the old bytes before the
block, which stands on lines of its own, and one that rejects leaves the file alone. -/
structure KeepsContents (block : String) (file : StoredFile) (outcome : StoredOutcome) : Prop where
  resolved : ∀ returned, outcome.result = .ok returned →
    ∃ before, outcome.bytes = some (before ++ utf8 block) ∧ BeginsLine before ∧
      file.bytes.getD [] <+: before ++ utf8 block
  rejected : ∀ e, outcome.result = .error e → outcome.bytes = file.bytes

/-- A text that ends a line ends it in the bytes as well. -/
theorem beginsLine_utf8 (bytes : List UInt8) (s : String) :
    BeginsLine (bytes ++ utf8 (s ++ "\n")) := by
  have hnewline : utf8 "\n" = [0x0A] := by decide
  rw [utf8_append, hnewline, ← List.append_assoc]
  exact .inr List.getLast?_concat

/-- The separator ends in a line break, however the contents end. -/
theorem exists_separated (contents block : String) :
    ∃ s, separated contents block = s ++ "\n" ++ block := by
  unfold separated
  split
  · exact ⟨"", rfl⟩
  · exact ⟨"\n", rfl⟩

variable {locale : Locale} {path block : String} {options : AppendOptions} {file : StoredFile}

/-- A file that is read keeps its contents. -/
theorem keepsContents_of_read {text : String} (hread : file.readFile = some text) :
    KeepsContents block file (appendToStored locale path block options file) := by
  unfold appendToStored appendWrite
  rw [hread]
  dsimp only
  by_cases hrefused : (options.tenantId ≠ "" && hasTenant locale text options.tenantId &&
      options.force ≠ some true) = true
  · rw [if_pos hrefused]
    exact ⟨nofun, fun _ _ => rfl⟩
  · rw [if_neg hrefused]
    obtain ⟨s, hs⟩ := exists_separated text block
    refine ⟨fun returned _ => ⟨file.bytes.getD [] ++ utf8 (s ++ "\n"), ?_, ?_, ?_⟩, nofun⟩
    · show some (file.bytes.getD [] ++ utf8 (separated text block)) = _
      rw [hs, utf8_append, List.append_assoc]
    · exact beginsLine_utf8 _ _
    · rw [List.append_assoc]
      exact List.prefix_append _ _

/-- One that is not read keeps them where they begin what is written in their place. -/
theorem keepsContents_iff_of_unread (hread : file.readFile = none) :
    KeepsContents block file (appendToStored locale path block options file) ↔
      file.bytes.getD [] <+: utf8 (newFileHeader ++ "\n" ++ block) := by
  have houtcome : appendToStored locale path block options file =
      { result := .ok { path, created := true, baseUrl := none }
        bytes := some (utf8 (newFileHeader ++ "\n" ++ block)) } := by
    unfold appendToStored appendWrite
    rw [hread]
    rfl
  rw [houtcome]
  constructor
  · intro hkeeps
    obtain ⟨before, hbytes, -, hprefix⟩ := hkeeps.resolved _ rfl
    have hwritten := Option.some.inj hbytes
    rw [hwritten]
    exact hprefix
  · intro hprefix
    refine ⟨fun returned _ => ⟨utf8 (newFileHeader ++ "\n"), ?_, ?_, ?_⟩, nofun⟩
    · rw [← utf8_append]
    · exact beginsLine_utf8 [] newFileHeader
    · rw [← utf8_append]
      exact hprefix

variable (locale path block options file)

/-- The file loses nothing exactly where it can be read, is not there, or holds no more than a
beginning of what is written in its place. -/
theorem append_keeps_contents_iff :
    KeepsContents block file (appendToStored locale path block options file) ↔
      ∀ old, file.bytes = some old → file.readFile = none →
        old <+: utf8 (newFileHeader ++ "\n" ++ block) := by
  cases hread : file.readFile with
  | some text => exact iff_of_true (keepsContents_of_read hread) nofun
  | none =>
      rw [keepsContents_iff_of_unread hread]
      cases file.bytes with
      | none => exact iff_of_true (List.nil_prefix) nofun
      | some old =>
          constructor
          · intro hprefix _ hold _
            cases hold
            exact hprefix
          · intro h
            exact h old rfl rfl

/-- A file whose owner may write it and not read it. -/
def writeOnlyFile : StoredFile where
  bytes := some (utf8 "TENANT_TOKEN_ACME=secret\n")
  readFile := none
  isSome_of_readFile := nofun

/-- The token it holds is gone after the append. -/
theorem append_truncates_unread : ¬ ∀ (locale : Locale) (path block : String)
    (options : AppendOptions) (file : StoredFile),
    KeepsContents block file (appendToStored locale path block options file) := by
  intro h
  have hkeeps := h asciiLocale ".env" "TENANT_TOKEN_OTHER=x\n" { tenantId := "other" }
    writeOnlyFile
  have hprefix := (keepsContents_iff_of_unread rfl).mp hkeeps
  revert hprefix
  decide

end Provisioning

end VcalmStatus
