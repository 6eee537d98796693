import NoteAssistant.Config.Model
import NoteAssistant.Config.Problem
import NoteAssistant.Config.Setting

/-! # The shape of a configuration

Reading settings as a configuration. The entries of a table are read in the order
of their keys, depth first; the first fault ends the reading, and a key that is
missing is noticed after all that are there.
-/

namespace NoteAssistant

/-- Why settings are no configuration. A path names the tables and the key on the
    way to the fault. -/
inductive Misfit where
  | unknownKey (path : List String) (key : String) (validKeys : List String)
  | missingKey (path : List String) (key : String)
  | unknownName (path : List String) (value : String) (validNames : List String)
  | mismatch (path : List String) (found : String) (expected : String)
  /-- A list too short for the table it stands for. -/
  | tooShort
  deriving DecidableEq, Repr

namespace Shape

/-- Reads a setting, found at a path, as a value of some type. -/
abbrev Reader (α : Type) := List String → Setting → Except Misfit α

def mismatch {α : Type} (expected : String) : Reader α := fun path v =>
  .error (.mismatch path v.description expected)

def string : Reader String
  | _, .string s => .ok s
  | _, .character c => .ok (String.singleton c)
  | path, v => mismatch "a string" path v

def optionalString : Reader (Option String) := fun path v => (string path v).map some

/-- A whole number that is not negative, of a type that messages call `kind`. -/
def natural (kind : String) : Reader Nat
  | _, .unsigned n => .ok n
  | path, .signed n => if n < 0 then mismatch kind path (.signed n) else .ok n.toNat
  | path, v => mismatch kind path v

def count : Reader Nat := natural "usize"

def time : Reader Nat := natural "u64"

def single : Reader Single
  | _, .float x => .ok x.toSingle
  | _, .unsigned n => .ok (Single.ofNat n)
  | _, .signed n =>
    let m := Single.ofNat n.natAbs
    .ok (if n < 0 then .ofPattern (Number.Format.single.negate m.pattern) else m)
  | path, v => mismatch "f32" path v

def driverKind : Reader DriverKind
  | path, .string s => named path s
  | path, .table [] => mismatch "enum" path (.table [])
  | path, .table ((key, v) :: _) => do
    let _ ← named (path ++ [key]) key
    mismatch "unit" (path ++ [key]) v
  | path, v => mismatch "enum DriverKind" path v
where
  named (path : List String) (s : String) : Except Misfit DriverKind :=
    match DriverKind.ofName? s with
    | some kind => .ok kind
    | none => .error (.unknownName path s [DriverKind.openai.name])

/-- How one field of a record is read and put into it. -/
structure Field (α : Type) where
  name : String
  read : List String → Setting → α → Except Misfit α

def field {α β : Type} (name : String) (r : Reader β) (put : β → α → α) : Field α where
  name := name
  read path v a := (r path v).map (put · a)

structure Record (α : Type) where
  /-- What messages call it. -/
  kind : String
  fields : List (Field α)
  /-- Fields that have to be there. -/
  required : List String
  default : α

namespace Record

def names {α : Type} (r : Record α) : List String := r.fields.map (·.name)

/-- Reads one entry of a table into a record. -/
def readEntry {α : Type} (r : Record α) (path : List String) (a : α)
    (entry : String × Setting) : Except Misfit α :=
  let (key, v) := entry
  match r.fields.find? (·.name = key) with
  | some f => f.read (path ++ [key]) v a
  | none => .error (.unknownKey (path ++ [key]) key r.names)

/-- Reads a table, or a list of the first fields in order. -/
def reader {α : Type} (r : Record α) : Reader α := fun path v =>
  match v with
  | .table entries => do
    let a ← entries.foldlM (r.readEntry path) r.default
    match r.required.find? fun name => (Setting.find? name entries).isNone with
    | some name => .error (.missingKey path name)
    | none => .ok a
  | .list items => do
    let numbered := (r.fields.zip items).zipIdx
    let a ← numbered.foldlM (fun a ((f, v), i) => f.read (path ++ [toString i]) v a) r.default
    if (r.names.drop items.length).any r.required.contains then .error .tooShort else .ok a
  | v => mismatch ("struct " ++ r.kind) path v

end Record

/-- A list whose items are read alike. -/
def list {α : Type} (r : Reader α) : Reader (List α) := fun path v =>
  match v with
  | .list items => items.zipIdx.mapM fun (item, i) => r (path ++ [toString i]) item
  | v => mismatch "a sequence" path v

/-- A table whose entries are read alike. -/
def map {α : Type} (r : Reader α) : Reader (List (String × α)) := fun path v =>
  match v with
  | .table entries => entries.mapM fun (key, v) => (r (path ++ [key]) v).map (key, ·)
  | v => mismatch "a map" path v

def site : Record SiteConfig where
  kind := "SiteConfig"
  fields := [
    field "title" string fun v c => { c with title := v },
    field "log_level" string fun v c => { c with logLevel := v },
    field "default_lang" string fun v c => { c with defaultLang := v }]
  required := []
  default := {}

def driver : Record DriverConfig where
  kind := "DriverConfig"
  fields := [
    field "name" string fun v c => { c with name := v },
    field "kind" driverKind fun v c => { c with kind := v },
    field "endpoint" string fun v c => { c with endpoint := v },
    field "api_key" optionalString fun v c => { c with apiKey := v },
    field "lang" string fun v c => { c with lang := v },
    field "chat_model" optionalString fun v c => { c with chatModel := v },
    field "embedding_model" optionalString fun v c => { c with embeddingModel := v },
    field "rerank_model" optionalString fun v c => { c with rerankModel := v },
    field "vision_model" optionalString fun v c => { c with visionModel := v },
    field "timeout_secs" time fun v c => { c with timeoutSecs := v }]
  required := ["name", "endpoint"]
  default := {}

def rag : Record RagConfig where
  kind := "RagConfig"
  fields := [
    field "base_threshold" single fun v c => { c with baseThreshold := v },
    field "adaptive_min_matches" count fun v c => { c with adaptiveMinMatches := v },
    field "adaptive_margin" single fun v c => { c with adaptiveMargin := v },
    field "high_score_keep" count fun v c => { c with highScoreKeep := v },
    field "short_content_chars" count fun v c => { c with shortContentChars := v },
    field "low_score_accept_limit" count fun v c => { c with lowScoreAcceptLimit := v },
    field "top_k" count fun v c => { c with topK := v },
    field "enhance_min_history" count fun v c => { c with enhanceMinHistory := v },
    field "history_window" count fun v c => { c with historyWindow := v },
    field "assistant_truncate_chars" count fun v c => { c with assistantTruncateChars := v },
    field "enhance_timeout_ms" time fun v c => { c with enhanceTimeoutMs := v },
    field "embed_timeout_ms" time fun v c => { c with embedTimeoutMs := v },
    field "rerank_timeout_ms" time fun v c => { c with rerankTimeoutMs := v }]
  required := []
  default := {}

def stream : Record StreamConfig where
  kind := "StreamConfig"
  fields := [
    field "flush_interval_ms" time fun v c => { c with flushIntervalMs := v },
    field "mask_lookahead" count fun v c => { c with maskLookahead := v },
    field "mask_max_span" count fun v c => { c with maskMaxSpan := v },
    field "channel_capacity" count fun v c => { c with channelCapacity := v },
    field "stream_timeout_secs" time fun v c => { c with streamTimeoutSecs := v }]
  required := []
  default := {}

def promptOverride : Record PromptOverride where
  kind := "PromptOverride"
  fields := [
    field "header" optionalString fun v c => { c with header := v },
    field "append" optionalString fun v c => { c with append := v }]
  required := []
  default := {}

def prompt : Record (List (String × PromptOverride)) where
  kind := "PromptConfig"
  fields := [field "overrides" (map promptOverride.reader) fun v _ => v]
  required := []
  default := []

def vault : Record VaultConfig where
  kind := "VaultConfig"
  fields := [
    field "key" optionalString fun v c => { c with key := v },
    field "key_env" string fun v c => { c with keyEnv := v }]
  required := []
  default := {}

def config : Record Config where
  kind := "MnemoConfig"
  fields := [
    field "site" site.reader fun v c => { c with site := v },
    field "drivers" (list driver.reader) fun v c => { c with drivers := v },
    field "usage" (map string) fun v c => { c with usage := v },
    field "rag" rag.reader fun v c => { c with rag := v },
    field "stream" stream.reader fun v c => { c with stream := v },
    field "prompt" prompt.reader fun v c => { c with overrides := v },
    field "vault" vault.reader fun v c => { c with vault := v }]
  required := []
  default := {}

end Shape

namespace Misfit

/-- The table and the key that a path ends in. -/
def leaf (path : List String) : List String × String :=
  (path.dropLast, path.getLast?.getD "")

/-- A problem with the value at a path. -/
def invalid (sources : List Source) (path : List String) (detail hint : String) : Report :=
  let (table, key) := leaf path
  ⟨.invalidValue (String.intercalate "." path) detail hint, Location.place? sources table key⟩

def report (sources : List Source) : Misfit → Report
  | unknownKey path key validKeys =>
    ⟨.unknownKey key (Location.tableLabel path) (Suggestion.suggest? key validKeys) validKeys,
      Location.place? sources path key⟩
  | missingKey path key => ⟨.missingKey key (Location.tableLabel path), none⟩
  | unknownName path value validNames =>
    let hint := match Suggestion.suggest? value validNames with
      | some s => s!"did you mean `{s}`?"
      | none => "one of: " ++ String.intercalate ", " validNames
    invalid sources path s!"unknown variant `{value}`" hint
  | mismatch path found expected =>
    invalid sources path ("found " ++ found) ("expected " ++ expected)
  | tooShort => ⟨.unreadable, none⟩

end Misfit

end NoteAssistant
