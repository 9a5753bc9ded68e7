import GuardedRepl.Config.Load
import GuardedRepl.Evaluator
import GuardedRepl.Proofs.Config.BlockLists
import GuardedRepl.Proofs.Policy.Matching

/-!
# Configurations in effect

The value of a setting comes from a variable of the environment, or else from the file, or else it is
the default value, and no setting has to do with another one.  A configuration that is loaded has all
its settings from there, and it is loaded exactly if an evaluator can be built from it.

**Results.**
* `numberIn_eq_some_iff`, `flagIn_eq_some_iff`: the texts of a variable that are a number or a truth
  value.
* `isInEffect_iff`: where the settings of a configuration come from.
* `validate_eq_error_iff`: why settings are refused.
* `configuration_in_effect`: the configuration that is loaded, the forms of block lists, and the
  configurations that no evaluator can be built from.
-/

namespace GuardedRepl
namespace Config

/-! ## Texts of variables -/

/-- A text is the decimal notation of a number of 64 bits, with an optional plus sign. -/
def IsNumber (text : String) (n : Nat) : Prop :=
  ∃ digits, (text.toList = digits ∨ text.toList = '+' :: digits) ∧ digits ≠ [] ∧
    (∀ d ∈ digits, d.isDigit = true) ∧ Text.Numeral.value digits = n ∧ n ≤ 0xFFFFFFFFFFFFFFFF

theorem readDigits_eq_some_iff {cs : List Char} {n : Nat} :
    Text.Numeral.readDigits cs = some n ↔
      cs ≠ [] ∧ (∀ d ∈ cs, d.isDigit = true) ∧ Text.Numeral.value cs = n := by
  rw [Text.Numeral.readDigits]
  by_cases hcs : cs = []
  · simp [hcs]
  · by_cases hdigits : ∀ d ∈ cs, d.isDigit = true
    · rw [if_neg (by simpa [hcs] using hdigits), Option.some_inj]
      exact ⟨fun hn => ⟨hcs, hdigits, hn⟩, fun h => h.2.2⟩
    · rw [if_pos (by simpa [hcs] using hdigits)]
      exact ⟨fun h => absurd h (by simp), fun h => absurd h.2.1 hdigits⟩

theorem numberIn_eq_some_iff {text : String} {n : Nat} :
    numberIn text = some n ↔ IsNumber text n := by
  unfold numberIn Text.Numeral.readNat
  rw [Option.filter_eq_some_iff, decide_eq_true_iff, readDigits_eq_some_iff, IsNumber]
  split
  · next rest htext =>
      constructor
      · rintro ⟨⟨hne, hdigits, hn⟩, hle⟩
        exact ⟨rest, Or.inr htext, hne, hdigits, hn, hle⟩
      · rintro ⟨digits, hsign, hne, hdigits, hn, hle⟩
        rw [htext] at hsign
        rcases hsign with rfl | hsign
        · exact absurd (hdigits '+' List.mem_cons_self) (by decide)
        · obtain rfl := (List.cons.inj hsign).2
          exact ⟨⟨hne, hdigits, hn⟩, hle⟩
  · next hsign =>
      constructor
      · rintro ⟨⟨hne, hdigits, hn⟩, hle⟩
        exact ⟨text.toList, Or.inl rfl, hne, hdigits, hn, hle⟩
      · rintro ⟨digits, rfl | htext, hne, hdigits, hn, hle⟩
        · exact ⟨⟨hne, hdigits, hn⟩, hle⟩
        · exact absurd htext (hsign digits)

/-- A text is a truth value. -/
def IsFlag (text : String) (b : Bool) : Prop :=
  text = if b then "true" else "false"

theorem flagIn_eq_some_iff {text : String} {b : Bool} : flagIn text = some b ↔ IsFlag text b := by
  unfold flagIn IsFlag
  split <;> cases b <;> simp_all

/-! ## Settings -/

/-- A setting of a configuration. -/
structure Setting (α : Type) where
  /-- The section of a file that it is in. -/
  sectionName : String
  /-- Its place in a section that is an array. -/
  place : Nat
  /-- Its name in a section that is a table. -/
  name : String
  /-- The values that it can have in a file. -/
  read : Toml.Value → Option α
  /-- The variable that overrides it, if there is one. -/
  variableName? : Option String
  /-- What a text of the variable means. -/
  means : String → α → Prop
  /-- Its value in a configuration. -/
  get : Config → α

namespace Setting

/-- A block list. -/
def blocked (place : Nat) (name variableName : String) (get : Config → List String) :
    Setting (List String) where
  sectionName := "blocked"
  place := place
  name := name
  read := readList
  variableName? := some variableName
  means text l := l = blockList [text]
  get := get

/-- A number. -/
def number (sectionName : String) (place : Nat) (name : String) (variableName? : Option String)
    (get : Config → Nat) : Setting Nat where
  sectionName := sectionName
  place := place
  name := name
  read := readNumber
  variableName? := variableName?
  means := IsNumber
  get := get

def packages : Setting (List String) :=
  blocked 0 "packages" "BLOCKED_PACKAGES" Config.packages

def classes : Setting (List String) :=
  blocked 1 "classes" "BLOCKED_CLASSES" Config.classes

def methods : Setting (List String) :=
  blocked 2 "methods" "BLOCKED_METHODS" Config.methods

def timeout : Setting Nat :=
  number "execution" 0 "timeout_ms" (some "TIMEOUT_MS") Config.timeout

def stopGrace : Setting Nat :=
  number "execution" 1 "stop_grace_ms" (some "STOP_GRACE_MS") Config.stopGrace

/-- The encoding of the output, which no variable overrides. -/
def encoding : Setting String where
  sectionName := "output"
  place := 0
  name := "encoding"
  read := readText
  variableName? := none
  means _ _ := False
  get := Config.encoding

/-- The capacity of the output, which no variable overrides. -/
def initialCapacity : Setting Nat :=
  number "output" 1 "initial_capacity" none Config.initialCapacity

def maxBytes : Setting Nat :=
  number "output" 2 "max_bytes" (some "OUTPUT_MAX_BYTES") Config.maxBytes

def auditEnabled : Setting Bool where
  sectionName := "audit"
  place := 0
  name := "enabled"
  read := readFlag
  variableName? := some "AUDIT_ENABLED"
  means := IsFlag
  get := Config.auditEnabled

def auditDestination : Setting AuditDestination where
  sectionName := "audit"
  place := 1
  name := "destination"
  read := readDestination
  variableName? := some "AUDIT_DESTINATION"
  means text d := d = .ofSetting text
  get := Config.auditDestination

section Values

variable {α : Type} (s : Setting α) (env : Environment) (es : Toml.Entries)

/-- The variable of the setting is set to a text that means this value. -/
def Overrides (x : α) : Prop :=
  ∃ name text, s.variableName? = some name ∧ env.lookup ("SNIPBOX_" ++ name) = some text ∧
    s.means text x

/-- What the file gives for the setting, if it is not left out. -/
def value? : Option Toml.Value :=
  (sectionOf es s.sectionName).bind fun values => values s.place s.name

/-- The value that a setting has. -/
inductive IsInEffect : α → Prop where
  | overridden {x : α} (h : s.Overrides env x) : IsInEffect x
  | written {v : Toml.Value} {x : α} (hfree : ∀ y, ¬ s.Overrides env y)
      (hvalue : s.value? es = some v) (hread : s.read v = some x) : IsInEffect x
  | byDefault (hfree : ∀ y, ¬ s.Overrides env y) (hvalue : s.value? es = none) :
      IsInEffect (s.get {})

/-- The value that a setting has without the environment. -/
def InFile (x : α) : Prop :=
  (∃ v, s.value? es = some v ∧ s.read v = some x) ∨ s.value? es = none ∧ x = s.get {}

end Values

section Effect

variable {α : Type} {s : Setting α} {env : Environment} {es : Toml.Entries} {x old : α}

theorem inFile_of_setting {values : Section} (hsection : sectionOf es s.sectionName = some values)
    (h : setting values s.place s.name s.read (s.get {}) = some old) : s.InFile es old := by
  have hvalue : s.value? es = values s.place s.name := by rw [value?, hsection, Option.bind_some]
  unfold setting at h
  split at h
  · next hnone => exact Or.inr ⟨hvalue.trans hnone, (Option.some.inj h).symm⟩
  · next v hsome => exact Or.inl ⟨v, hvalue.trans hsome, h⟩

/-- Where no variable has a say, the file has. -/
theorem isInEffect_iff_of_free (hfree : ∀ y, ¬ s.Overrides env y) (hold : s.InFile es old) :
    s.IsInEffect env es x ↔ x = old := by
  constructor
  · intro h
    cases h with
    | overridden h => exact absurd h (hfree x)
    | written _ hvalue hread =>
        rcases hold with ⟨w, hw, hreadw⟩ | ⟨hnone, -⟩
        · obtain rfl := Option.some.inj (hvalue.symm.trans hw)
          exact Option.some.inj (hread.symm.trans hreadw)
        · rw [hnone] at hvalue
          cases hvalue
    | byDefault _ hvalue =>
        rcases hold with ⟨w, hw, -⟩ | ⟨-, rfl⟩
        · rw [hvalue] at hw
          cases hw
        · rfl
  · rintro rfl
    rcases hold with ⟨w, hw, hread⟩ | ⟨hnone, rfl⟩
    · exact .written hfree hw hread
    · exact .byDefault hfree hnone

theorem isInEffect_iff_of_none (hname : s.variableName? = none) (hold : s.InFile es old) :
    s.IsInEffect env es x ↔ x = old := by
  refine isInEffect_iff_of_free ?_ hold
  rintro y ⟨name, text, hsome, -⟩
  rw [hname] at hsome
  cases hsome

/-- The value of a setting with a variable. -/
theorem isInEffect_iff_override {name : String} {readVariable : String → Option α}
    (hname : s.variableName? = some name)
    (hmeans : ∀ text y, s.means text y ↔ readVariable text = some y) (hold : s.InFile es old) :
    s.IsInEffect env es x ↔ x = override env name readVariable old := by
  have hover (y : α) : s.Overrides env y ↔
      (env.lookup ("SNIPBOX_" ++ name)).bind readVariable = some y := by
    rw [Option.bind_eq_some_iff, Overrides]
    constructor
    · rintro ⟨n, text, hn, htext, hy⟩
      obtain rfl := Option.some.inj (hname.symm.trans hn)
      exact ⟨text, htext, (hmeans text y).mp hy⟩
    · rintro ⟨text, htext, hy⟩
      exact ⟨name, text, hname, htext, (hmeans text y).mpr hy⟩
  rw [override]
  cases hgiven : (env.lookup ("SNIPBOX_" ++ name)).bind readVariable with
  | none =>
      rw [Option.getD_none]
      refine isInEffect_iff_of_free (fun y hy => ?_) hold
      rw [(hover y).mp hy] at hgiven
      cases hgiven
  | some given =>
      have hgivenOver : s.Overrides env given := (hover given).mpr hgiven
      rw [Option.getD_some]
      constructor
      · intro h
        cases h with
        | overridden h => exact Option.some.inj (((hover x).mp h).symm.trans hgiven)
        | written hfree => exact absurd hgivenOver (hfree given)
        | byDefault hfree => exact absurd hgivenOver (hfree given)
      · rintro rfl
        exact .overridden hgivenOver

end Effect

end Setting

/-! ## Configurations -/

/-- All settings of a configuration have the values that they have in effect. -/
structure IsInEffect (env : Environment) (es : Toml.Entries) (c : Config) : Prop where
  packages : Setting.packages.IsInEffect env es c.packages
  classes : Setting.classes.IsInEffect env es c.classes
  methods : Setting.methods.IsInEffect env es c.methods
  timeout : Setting.timeout.IsInEffect env es c.timeout
  stopGrace : Setting.stopGrace.IsInEffect env es c.stopGrace
  encoding : Setting.encoding.IsInEffect env es c.encoding
  initialCapacity : Setting.initialCapacity.IsInEffect env es c.initialCapacity
  maxBytes : Setting.maxBytes.IsInEffect env es c.maxBytes
  auditEnabled : Setting.auditEnabled.IsInEffect env es c.auditEnabled
  auditDestination : Setting.auditDestination.IsInEffect env es c.auditDestination

/-- All settings of a configuration are those of the file. -/
structure InFile (es : Toml.Entries) (c : Config) : Prop where
  packages : Setting.packages.InFile es c.packages
  classes : Setting.classes.InFile es c.classes
  methods : Setting.methods.InFile es c.methods
  timeout : Setting.timeout.InFile es c.timeout
  stopGrace : Setting.stopGrace.InFile es c.stopGrace
  encoding : Setting.encoding.InFile es c.encoding
  initialCapacity : Setting.initialCapacity.InFile es c.initialCapacity
  maxBytes : Setting.maxBytes.InFile es c.maxBytes
  auditEnabled : Setting.auditEnabled.InFile es c.auditEnabled
  auditDestination : Setting.auditDestination.InFile es c.auditDestination

/-- The settings of a configuration that is read are those of the file. -/
theorem inFile_of_ofEntries {es : Toml.Entries} {c : Config} (h : ofEntries es = some c) :
    InFile es c := by
  unfold ofEntries at h
  extract_lets d at h
  split at h
  · cases h
  · obtain ⟨blocked, hblocked, h⟩ := Option.bind_eq_some_iff.mp h
    obtain ⟨execution, hexecution, h⟩ := Option.bind_eq_some_iff.mp h
    obtain ⟨output, houtput, h⟩ := Option.bind_eq_some_iff.mp h
    obtain ⟨audit, haudit, h⟩ := Option.bind_eq_some_iff.mp h
    obtain ⟨packages, hpackages, h⟩ := Option.bind_eq_some_iff.mp h
    obtain ⟨classes, hclasses, h⟩ := Option.bind_eq_some_iff.mp h
    obtain ⟨methods, hmethods, h⟩ := Option.bind_eq_some_iff.mp h
    obtain ⟨timeout, htimeout, h⟩ := Option.bind_eq_some_iff.mp h
    obtain ⟨stopGrace, hstopGrace, h⟩ := Option.bind_eq_some_iff.mp h
    obtain ⟨encoding, hencoding, h⟩ := Option.bind_eq_some_iff.mp h
    obtain ⟨capacity, hcapacity, h⟩ := Option.bind_eq_some_iff.mp h
    obtain ⟨maxBytes, hmaxBytes, h⟩ := Option.bind_eq_some_iff.mp h
    obtain ⟨enabled, henabled, h⟩ := Option.bind_eq_some_iff.mp h
    obtain ⟨destination, hdestination, h⟩ := Option.bind_eq_some_iff.mp h
    cases h
    exact {
      packages := Setting.inFile_of_setting hblocked hpackages
      classes := Setting.inFile_of_setting hblocked hclasses
      methods := Setting.inFile_of_setting hblocked hmethods
      timeout := Setting.inFile_of_setting hexecution htimeout
      stopGrace := Setting.inFile_of_setting hexecution hstopGrace
      encoding := Setting.inFile_of_setting houtput hencoding
      initialCapacity := Setting.inFile_of_setting houtput hcapacity
      maxBytes := Setting.inFile_of_setting houtput hmaxBytes
      auditEnabled := Setting.inFile_of_setting haudit henabled
      auditDestination := Setting.inFile_of_setting haudit hdestination }

theorem Setting.isInEffect_blocked_iff {es : Toml.Entries} {place : Nat} {name variableName : String}
    {get : Config → List String} {old : List String}
    (hold : (Setting.blocked place name variableName get).InFile es old) (env : Environment)
    (l : List String) :
    (Setting.blocked place name variableName get).IsInEffect env es l ↔
      l = override env variableName (some ∘ splitList) old := by
  refine isInEffect_iff_override rfl (fun text y => ?_) hold
  change y = blockList [text] ↔ some (splitList text) = some y
  rw [blockList_singleton, Option.some_inj, eq_comm]

theorem Setting.isInEffect_number_iff {es : Toml.Entries} {sectionName name variableName : String}
    {place : Nat} {get : Config → Nat} {old : Nat}
    (hold : (Setting.number sectionName place name (some variableName) get).InFile es old)
    (env : Environment) (n : Nat) :
    (Setting.number sectionName place name (some variableName) get).IsInEffect env es n ↔
      n = override env variableName numberIn old :=
  isInEffect_iff_override rfl (fun _ _ => numberIn_eq_some_iff.symm) hold

/-- Where the settings of a configuration come from. -/
theorem isInEffect_iff {es : Toml.Entries} {c : Config} (h : ofEntries es = some c)
    (env : Environment) (c' : Config) : IsInEffect env es c' ↔ c' = c.withEnvironment env := by
  have hfile := inFile_of_ofEntries h
  have hpackages := Setting.isInEffect_blocked_iff hfile.packages env
  have hclasses := Setting.isInEffect_blocked_iff hfile.classes env
  have hmethods := Setting.isInEffect_blocked_iff hfile.methods env
  have htimeout := Setting.isInEffect_number_iff hfile.timeout env
  have hstopGrace := Setting.isInEffect_number_iff hfile.stopGrace env
  have hencoding (x : String) : Setting.encoding.IsInEffect env es x ↔ x = c.encoding :=
    Setting.isInEffect_iff_of_none rfl hfile.encoding
  have hcapacity (n : Nat) : Setting.initialCapacity.IsInEffect env es n ↔ n = c.initialCapacity :=
    Setting.isInEffect_iff_of_none rfl hfile.initialCapacity
  have hmaxBytes := Setting.isInEffect_number_iff hfile.maxBytes env
  have henabled (b : Bool) : Setting.auditEnabled.IsInEffect env es b ↔
      b = override env "AUDIT_ENABLED" flagIn c.auditEnabled :=
    Setting.isInEffect_iff_override rfl (fun _ _ => flagIn_eq_some_iff.symm) hfile.auditEnabled
  have hdestination (d : AuditDestination) : Setting.auditDestination.IsInEffect env es d ↔
      d = override env "AUDIT_DESTINATION" (some ∘ .ofSetting) c.auditDestination := by
    refine Setting.isInEffect_iff_override rfl (fun text d => ?_) hfile.auditDestination
    rw [Function.comp_apply, Option.some_inj]
    exact eq_comm
  constructor
  · intro h'
    have hfields : c' = ⟨c'.packages, c'.classes, c'.methods, c'.timeout, c'.stopGrace, c'.encoding,
        c'.initialCapacity, c'.maxBytes, c'.auditEnabled, c'.auditDestination⟩ := rfl
    rw [hfields, (hpackages _).mp h'.packages, (hclasses _).mp h'.classes,
      (hmethods _).mp h'.methods, (htimeout _).mp h'.timeout, (hstopGrace _).mp h'.stopGrace,
      (hencoding _).mp h'.encoding, (hcapacity _).mp h'.initialCapacity,
      (hmaxBytes _).mp h'.maxBytes, (henabled _).mp h'.auditEnabled,
      (hdestination _).mp h'.auditDestination]
    rfl
  · rintro rfl
    exact {
      packages := (hpackages _).mpr rfl
      classes := (hclasses _).mpr rfl
      methods := (hmethods _).mpr rfl
      timeout := (htimeout _).mpr rfl
      stopGrace := (hstopGrace _).mpr rfl
      encoding := (hencoding _).mpr rfl
      initialCapacity := (hcapacity _).mpr rfl
      maxBytes := (hmaxBytes _).mpr rfl
      auditEnabled := (henabled _).mpr rfl
      auditDestination := (hdestination _).mpr rfl }

/-! ## Refused settings -/

/-- No evaluator can be built from a configuration, and this is the reason.  Of several reasons the
first one in this order is given. -/
inductive Refused (c : Config) : ConfigError → Prop where
  | deadline (h : c.timeout = 0) : Refused c .zeroDeadline
  | capacity (hdeadline : c.timeout ≠ 0) (h : c.maxBytes < c.initialCapacity) :
      Refused c (.capBelowCapacity c.maxBytes c.initialCapacity)
  | encoding (hdeadline : c.timeout ≠ 0) (hcapacity : c.initialCapacity ≤ c.maxBytes)
      (h : (Text.trim c.encoding.toList).map Char.toLower ∉ ["utf-8".toList, "utf8".toList]) :
      Refused c (.unsupportedEncoding c.encoding)
  | method {entry : String} (hdeadline : c.timeout ≠ 0) (hcapacity : c.initialCapacity ≤ c.maxBytes)
      (hencoding : (Text.trim c.encoding.toList).map Char.toLower ∈ ["utf-8".toList, "utf8".toList])
      (h : Filter.IsFirstMalformed c.methods entry) : Refused c (.malformedMethod (trimmed entry))

theorem filter_eq_error_iff (c : Config) (e : ConfigError) :
    c.filter = .error e ↔
      ∃ entry, Filter.IsFirstMalformed c.methods entry ∧ e = .malformedMethod (trimmed entry) := by
  have hlists := Filter.ofLists_eq_error_iff c.packages c.classes c.methods
  rw [filter]
  cases hfilter : Filter.ofLists c.packages c.classes c.methods with
  | error bad =>
      obtain ⟨entry, hfirst, hbad⟩ := (hlists bad).mp hfilter
      constructor
      · intro h
        cases h
        exact ⟨entry, hfirst, congrArg _ (congrArg _ hbad)⟩
      · rintro ⟨entry', hfirst', rfl⟩
        obtain rfl := Except.error.inj (hfilter.symm.trans ((hlists _).mpr ⟨entry', hfirst', rfl⟩))
        rfl
  | ok f =>
      constructor
      · intro h
        cases h
      · rintro ⟨entry, hfirst, -⟩
        have := hfilter.symm.trans ((hlists _).mpr ⟨entry, hfirst, rfl⟩)
        cases this

/-- Why settings are refused. -/
theorem validate_eq_error_iff (c : Config) (e : ConfigError) :
    c.validate = .error e ↔ Refused c e := by
  rw [validate]
  split_ifs with hdeadline hcapacity
  · constructor
    · intro h
      cases h
      exact .deadline hdeadline
    · intro h
      cases h <;> first | rfl | contradiction
  · constructor
    · intro h
      cases h
      exact .capacity hdeadline hcapacity
    · intro h
      cases h <;> first | rfl | contradiction | omega
  · unfold Encoding.ofName
    split_ifs with hencoding
    · rw [filter_eq_error_iff]
      constructor
      · rintro ⟨entry, hfirst, rfl⟩
        exact .method hdeadline (Nat.le_of_not_lt hcapacity) hencoding hfirst
      · intro h
        cases h with
        | deadline h => exact absurd h hdeadline
        | capacity _ h => exact absurd h hcapacity
        | encoding _ _ h => exact absurd hencoding h
        | method _ _ _ h => exact ⟨_, h, rfl⟩
    · constructor
      · intro h
        cases h
        exact .encoding hdeadline (Nat.le_of_not_lt hcapacity) hencoding
      · intro h
        cases h with
        | deadline h => exact absurd h hdeadline
        | capacity _ h => exact absurd h hcapacity
        | encoding => rfl
        | method _ _ h => exact absurd h hencoding

/-! ## Loading -/

/-- Loading yields this configuration, or the reason why no evaluator can be built from it, whatever
engine it gets. -/
structure Loads (c : Config) (result : Except ConfigError Config) : Prop where
  eq_of_ok {c' : Config} (h : result = .ok c') : c' = c
  ok_iff {σ : Type} (s : σ) (audited : Bool) :
    result = .ok c ↔ ∃ ev, Evaluator.build c (.ok s) audited = .ok ev
  error_iff {σ : Type} (s : σ) (audited : Bool) (e : EvalError) :
    Evaluator.build c (.ok s) audited = .error e ↔ ∃ f, e = .config f ∧ result = .error f
  refused_iff (f : ConfigError) : result = .error f ↔ Refused c f

theorem loads_error {c : Config} {f : ConfigError} (h : c.validate = .error f) :
    Loads c (.error f) := by
  have hbuild {σ : Type} (s : σ) (audited : Bool) :
      Evaluator.build c (.ok s) audited = .error (.config f) := by
    rw [Evaluator.build, h]
  refine ⟨fun hok => (by cases hok), fun s audited => ?_, fun s audited e => ?_, fun f' => ?_⟩
  · rw [hbuild]
    constructor
    · intro hok
      cases hok
    · rintro ⟨ev, hev⟩
      cases hev
  · rw [hbuild]
    constructor
    · intro he
      cases he
      exact ⟨f, rfl, rfl⟩
    · rintro ⟨f', rfl, hf'⟩
      cases hf'
      rfl
  · rw [← validate_eq_error_iff, h]
    simp only [Except.error.injEq]

theorem loads_ok {c : Config} {filter : Filter} (h : c.validate = .ok filter) :
    Loads c (.ok c) := by
  have hbuild {σ : Type} (s : σ) (audited : Bool) :
      ∃ ev, Evaluator.build c (.ok s) audited = .ok ev := by
    rw [Evaluator.build, h]
    exact ⟨_, rfl⟩
  refine ⟨fun hok => (Except.ok.inj hok).symm, fun s audited => ?_, fun s audited e => ?_,
    fun f => ?_⟩
  · exact ⟨fun _ => hbuild s audited, fun _ => rfl⟩
  · obtain ⟨ev, hev⟩ := hbuild s audited
    rw [hev]
    constructor
    · intro he
      cases he
    · rintro ⟨f, -, hf⟩
      cases hf
  · rw [← validate_eq_error_iff, h]
    constructor <;> intro hf <;> cases hf

theorem loads_finish (env : Environment) (c : Config) :
    Loads (c.withEnvironment env) (finish env c) := by
  have hfinish : finish env c =
      (c.withEnvironment env).validate.map fun _ => c.withEnvironment env := rfl
  rw [hfinish]
  cases hvalid : (c.withEnvironment env).validate with
  | error f => exact loads_error hvalid
  | ok filter => exact loads_ok hvalid

/-- A file that is read is there. -/
theorem leads_of_readText {files : Files.Tree} {path : Files.Path} {text : List Char}
    (h : files.readText path = .ok text) : files.leads path = true := by
  rw [Files.Tree.leads]
  rw [Files.Tree.readText] at h
  split at h
  · cases h
  · cases h
  · next hlookup => rw [hlookup]

theorem ofEntries_nil : ofEntries [] = some {} := by
  rfl

/-- Texts are written as a block list: as an array, as one text with commas, or as one text with
commas in the variable that overrides the list. -/
inductive Setting.Lists (s : Setting (List String)) (env : Environment) (es : Toml.Entries)
    (texts : List String) : Prop where
  | array (hfree : ∀ l, ¬ s.Overrides env l)
      (h : s.value? es = some (.array (texts.map .string)))
  | joined (hfree : ∀ l, ¬ s.Overrides env l)
      (h : s.value? es = some (.string (",".intercalate texts)))
  | overriding {name : String} (hname : s.variableName? = some name)
      (h : env.lookup ("SNIPBOX_" ++ name) = some (",".intercalate texts))

/-- The three forms of a block list stand for the same one. -/
theorem Setting.isInEffect_of_lists {place : Nat} {name variableName : String}
    {get : Config → List String} {env : Environment} {es : Toml.Entries} {texts : List String}
    (h : (Setting.blocked place name variableName get).Lists env es texts) (l : List String) :
    (Setting.blocked place name variableName get).IsInEffect env es l ↔ l = blockList texts := by
  cases h with
  | array hfree h => exact isInEffect_iff_of_free hfree (Or.inl ⟨_, h, readList_array texts⟩)
  | joined hfree h =>
      refine isInEffect_iff_of_free hfree (Or.inl ⟨_, h, ?_⟩)
      rw [← splitList_intercalate]
      exact readList_string _
  | overriding hname h =>
      have hmeans (l : List String) :
          (Setting.blocked place name variableName get).means (",".intercalate texts) l ↔
            l = blockList texts := by
        rw [← splitList_intercalate, ← blockList_singleton]
        exact Iff.rfl
      have hover : (Setting.blocked place name variableName get).Overrides env (blockList texts) :=
        ⟨_, _, hname, h, (hmeans _).mpr rfl⟩
      constructor
      · intro hl
        cases hl with
        | overridden hl =>
            obtain ⟨name', text, hname', htext, hl⟩ := hl
            obtain rfl := Option.some.inj (hname.symm.trans hname')
            obtain rfl := Option.some.inj (h.symm.trans htext)
            exact (hmeans l).mp hl
        | written hfree => exact absurd hover (hfree _)
        | byDefault hfree => exact absurd hover (hfree _)
      · rintro rfl
        exact .overridden hover

/-- **Configurations.**  From a file that can be read, a configuration is loaded whose settings come
from the variables, the file and the default values, each on its own; from no file at all, one whose
settings come from the variables and the default values.  The texts of a block list can be written
in three ways, which stand for the same list, and without commas they make the same filter as this
list.  Loading fails exactly if no evaluator can be built from the settings, for the same reason. -/
theorem configuration_in_effect {files : Files.Tree} {env : Environment} {path : Files.Path}
    {text : List Char} {es : Toml.Entries} (hread : files.readText path = .ok text)
    (hparse : Toml.parse text = some es) (hfits : (ofEntries es).isSome = true) :
    (∃ c, (∀ c', IsInEffect env es c' ↔ c' = c) ∧ Loads c (load files env path) ∧
      Loads c (loadRequired files env path)) ∧
    (∀ path', files.leads path' = false →
      ∃ c, (∀ c', IsInEffect env [] c' ↔ c' = c) ∧ Loads c (load files env path')) ∧
    (∀ s ∈ [Setting.packages, Setting.classes, Setting.methods], ∀ env es texts,
      s.Lists env es texts → ∀ l, s.IsInEffect env es l ↔ l = blockList texts) ∧
    ∀ texts : List String, (∀ t ∈ texts, ',' ∉ t.toList) → ∀ packages classes methods,
      Filter.ofLists (blockList texts) classes methods = Filter.ofLists texts classes methods ∧
      Filter.ofLists packages (blockList texts) methods = Filter.ofLists packages texts methods ∧
      Filter.ofLists packages classes (blockList texts) =
        Filter.ofLists packages classes texts := by
  refine ⟨?_, fun path' hmissing => ?_, ?_, fun texts htexts packages classes methods => ?_⟩
  · obtain ⟨c, hc⟩ := Option.isSome_iff_exists.mp hfits
    have hfile : read files path = .ok c := by
      have hsome : (Toml.parse text).bind ofEntries = some c := by
        rw [hparse, Option.bind_some, hc]
      simp only [read, hread, hsome]
    have hrequired : loadRequired files env path = finish env c := by
      rw [loadRequired, hfile]
      rfl
    have hload : load files env path = finish env c := by
      rw [load, if_pos (leads_of_readText hread), hrequired]
    rw [hload, hrequired]
    exact ⟨_, isInEffect_iff hc env, loads_finish env c, loads_finish env c⟩
  · have hload : load files env path' = finish env {} := by
      rw [load, if_neg (by simp [hmissing])]
    rw [hload]
    exact ⟨_, isInEffect_iff ofEntries_nil env, loads_finish env {}⟩
  · intro s hs env es texts hlists
    simp only [List.mem_cons, List.not_mem_nil, or_false] at hs
    rcases hs with rfl | rfl | rfl <;> exact Setting.isInEffect_of_lists hlists
  · exact ⟨ofLists_packages htexts classes methods, ofLists_classes htexts packages methods,
      ofLists_methods htexts packages classes⟩

/-- A file and an environment that have a say in some of the settings each.  One of the variables has
a text that means nothing. -/
theorem configuration_in_effect_mixed :
    ∃ (files : Files.Tree) (env : Environment) (path : Files.Path) (text : List Char)
      (es : Toml.Entries) (c : Config),
      text = "blocked = [[\"a.b\", \" c,d\"], \"e\"]\n[output]\nmax_bytes = 4000\n".toList ∧
      env = [("SNIPBOX_TIMEOUT_MS", "+7"), ("SNIPBOX_BLOCKED_METHODS", " x.Y#z,, "),
        ("SNIPBOX_OUTPUT_MAX_BYTES", "4 000")] ∧
      files.readText path = .ok text ∧ Toml.parse text = some es ∧ (ofEntries es).isSome = true ∧
      c = { packages := ["a.b", "c", "d"], classes := ["e"], methods := ["x.Y#z"], timeout := 7,
            maxBytes := 4000 } ∧
      load files env path = .ok c ∧ IsInEffect env es c ∧
      ∃ ev, Evaluator.build c (.ok ()) false = .ok ev := by
  let text := "blocked = [[\"a.b\", \" c,d\"], \"e\"]\n[output]\nmax_bytes = 4000\n".toList
  let env : Environment := [("SNIPBOX_TIMEOUT_MS", "+7"), ("SNIPBOX_BLOCKED_METHODS", " x.Y#z,, "),
    ("SNIPBOX_OUTPUT_MAX_BYTES", "4 000")]
  let files : Files.Tree := .ofFiles ["tmp"] [("a", Text.Utf8.encode text)]
  let c : Config :=
    { packages := ["a.b", "c", "d"], classes := ["e"], methods := ["x.Y#z"], timeout := 7,
      maxBytes := 4000 }
  have hread : files.readText ⟨"a"⟩ = .ok text := by decide +kernel
  obtain ⟨es, hparse⟩ : ∃ es, Toml.parse text = some es :=
    Option.isSome_iff_exists.mp (by decide +kernel)
  have hfits : (ofEntries es).isSome = true := by
    have hall : ((Toml.parse text).bind ofEntries).isSome = true := by decide +kernel
    rwa [hparse, Option.bind_some] at hall
  have hload : load files env ⟨"a"⟩ = .ok c := by decide +kernel
  obtain ⟨⟨c', heffect, hloads, -⟩, -⟩ := @configuration_in_effect files env _ _ _ hread hparse hfits
  obtain rfl := hloads.eq_of_ok hload
  exact ⟨files, env, _, text, es, c, rfl, rfl, hread, hparse, hfits, rfl, hload,
    (heffect c).mpr rfl, (hloads.ok_iff () false).mp hload⟩

end Config
end GuardedRepl
