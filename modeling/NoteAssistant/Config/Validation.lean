import NoteAssistant.Config.Model
import NoteAssistant.Config.Problem
import NoteAssistant.Number.Shortest

/-! # Validation

The rules that a configuration has to meet beyond its shape. All problems are
found, in a fixed order.
-/

namespace NoteAssistant.Config

def logLevels : List String := ["trace", "debug", "info", "warn", "error"]

/-- Characters of the placeholder prefix that a reply stream has to recognise. -/
def maskPrefixLength : Nat := 8

/-- One problem if the condition holds. -/
def report (condition : Bool) (p : Problem) : List Problem := if condition then [p] else []

def siteProblems (site : SiteConfig) : List Problem :=
  let levels := String.intercalate ", " logLevels
  report (!logLevels.contains site.logLevel)
    (.validation s!"site.log_level `{site.logLevel}` must be one of: {levels}")

/-- An address with one of the two accepted schemes. -/
def isHttp (endpoint : String) : Bool :=
  Text.startsWith "http://".toList endpoint.toList ||
    Text.startsWith "https://".toList endpoint.toList

/-- The problems of one driver, given the name keys of those before it. A driver
    without a name is not looked at further. -/
def driverProblems (seen : List String) (index : Nat) (d : DriverConfig) : List Problem :=
  let name := trimmed d.name
  let endpoint := trimmed d.endpoint
  if name = "" then [.driver index "name must not be empty"]
  else
    report (seen.contains (lowered name)) (.driver index s!"duplicate driver name `{name}`")
      ++ report (!isHttp endpoint)
        (.driver index s!"endpoint `{endpoint}` must be an http(s) URL")
      ++ report (d.timeoutSecs = 0) (.driver index "timeout_secs must be greater than zero")
      ++ report d.capabilities.isEmpty
        (.driver index s!"driver `{name}` configures no model and would serve nothing")

/-- The problems of the drivers from `index` on. -/
def driverListProblems (seen : List String) (index : Nat) : List DriverConfig → List Problem
  | [] => []
  | d :: ds =>
    let name := trimmed d.name
    let seen' := if name = "" then seen else lowered name :: seen
    driverProblems seen index d ++ driverListProblems seen' (index + 1) ds

/-- The first driver with the name that a usage entry gives. -/
def namedDriver? (drivers : List DriverConfig) (name : String) : Option DriverConfig :=
  drivers.find? fun d => nameKey d.name = nameKey name

def usageProblems (drivers : List DriverConfig) (key driver : String) : List Problem :=
  let names := String.intercalate ", " (drivers.map fun d => trimmed d.name)
  if !UsageKey.all.contains key then
    [.unknownUsageKey key (Suggestion.suggest? key UsageKey.all)]
  else match namedDriver? drivers driver with
    | none => [.usage key s!"driver `{driver}` is not configured" names]
    | some d =>
      let capability := Capability.ofUsageKey key
      report (!d.capabilities.contains capability)
        (.usage key s!"driver `{driver}` cannot serve {capability.name}" names)

/-- The usage entries in the order of their keys. -/
def sortedUsage (usage : List (String × String)) : List (String × String) :=
  usage.mergeSort fun a b => decide (a.1 ≤ b.1)

def isFraction (x : Single) : Bool := Single.zero.le x && x.le Single.one

def fractionProblems (name : String) (x : Single) : List Problem :=
  report (!isFraction x) (.validation s!"{name} must be within 0.0..=1.0, got {x.text}")

def positiveProblems (name : String) (n : Nat) : List Problem :=
  report (n = 0) (.validation s!"{name} must be greater than zero")

def ragProblems (r : RagConfig) : List Problem :=
  fractionProblems "rag.base_threshold" r.baseThreshold
    ++ fractionProblems "rag.adaptive_margin" r.adaptiveMargin
    ++ report (r.topK = 0) (.validation "rag.top_k must be at least 1")
    ++ report (r.historyWindow < r.enhanceMinHistory)
      (.validation (s!"rag.history_window ({r.historyWindow}) must be at least " ++
        s!"rag.enhance_min_history ({r.enhanceMinHistory})"))
    ++ positiveProblems "rag.enhance_timeout_ms" r.enhanceTimeoutMs
    ++ positiveProblems "rag.embed_timeout_ms" r.embedTimeoutMs
    ++ positiveProblems "rag.rerank_timeout_ms" r.rerankTimeoutMs

def streamProblems (s : StreamConfig) : List Problem :=
  positiveProblems "stream.flush_interval_ms" s.flushIntervalMs
    ++ positiveProblems "stream.stream_timeout_secs" s.streamTimeoutSecs
    ++ report (s.maskLookahead < maskPrefixLength)
      (.validation (s!"stream.mask_lookahead must be at least {maskPrefixLength} " ++
        s!"to fit the placeholder prefix, got {s.maskLookahead}"))
    ++ report (s.maskMaxSpan ≤ s.maskLookahead)
      (.validation (s!"stream.mask_max_span ({s.maskMaxSpan}) must exceed " ++
        s!"stream.mask_lookahead ({s.maskLookahead})"))
    ++ report (s.channelCapacity = 0) (.validation "stream.channel_capacity must be at least 1")

/-- A key of 64 ASCII hexadecimal digits. -/
def isVaultKey (key : String) : Bool :=
  key.utf8ByteSize = 64 && key.toList.all fun c =>
    ('0' ≤ c && c ≤ '9') || ('a' ≤ c && c ≤ 'f') || ('A' ≤ c && c ≤ 'F')

def vaultProblems (v : VaultConfig) : List Problem :=
  match v.key with
  | none => []
  | some key =>
    report (!isVaultKey key) (.validation "vault.key must be 64 hex characters (32 bytes)")

def problems (c : Config) : List Problem :=
  siteProblems c.site
    ++ driverListProblems [] 0 c.drivers
    ++ (sortedUsage c.usage).flatMap (fun (key, driver) => usageProblems c.drivers key driver)
    ++ ragProblems c.rag
    ++ streamProblems c.stream
    ++ vaultProblems c.vault

def isValid (c : Config) : Bool := c.problems.isEmpty

end NoteAssistant.Config
