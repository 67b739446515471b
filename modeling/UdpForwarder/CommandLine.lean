import UdpForwarder.Endpoint
import UdpForwarder.OptParser

/-! `real_main` up to `runForever`: what the forwarder that is constructed was told on the command
line. -/

namespace UdpForwarder.Forwarder

open Filters

structure Constructed where
  ptrInbound : PlainInbound
  ptrOutbound : PlainOutbound
  ptrFilter : BaseFilter

/-- What the constructor does for either endpoint. `dynport` leaves a null pointer behind, whose
`loadConfig` is called next. -/
def constructEndpoint {Endpoint : Type} (loadConfig : Bytes → Except Exn Endpoint)
    (unknown : String) (config : Bytes) : Except Exn Endpoint :=
  if startsWith config (ascii "plain") then loadConfig config
  else if startsWith config (ascii "dynport") then .error .undefinedBehaviour
  else .error (.invalidArgument (unknown ++ shown config))

def constructInbound : Bytes → Except Exn PlainInbound :=
  constructEndpoint PlainInbound.loadConfig "Unknown protocol in inboundConfig "

def constructOutbound : Bytes → Except Exn PlainOutbound :=
  constructEndpoint PlainOutbound.loadConfig "Unknown protocol in outboundConfig "

/-- `Forwarder::Forwarder` -/
def construct (hash : Bytes → UInt64) (inboundConfig outboundConfig : Bytes)
    (filterConfigs : List Bytes) : Except Exn Constructed := do
  let ptrInbound ← constructInbound inboundConfig
  let ptrOutbound ← constructOutbound outboundConfig
  let ptrFilter ← ptrFilter hash filterConfigs
  return { ptrInbound, ptrOutbound, ptrFilter }

end UdpForwarder.Forwarder

namespace UdpForwarder.CommandLine

open Filters Forwarder OptParser

structure Configs where
  inboundConfig : Bytes
  outboundConfig : Bytes
  logLevel : Bytes
  deriving DecidableEq

def readConfigs (args : List Bytes) : Except Exn (Configs × List Bytes) := do
  let (inboundConfig, args) ← getValueArg (ascii "-i") true [] args
  let (outboundConfig, args) ← getValueArg (ascii "-o") true [] args
  let (logLevel, args) ← getValueArg (ascii "--log") false (ascii "info") args
  return ({ inboundConfig, outboundConfig, logLevel }, args)

def setLogLevel (logLevel : Bytes) : Except Exn Unit :=
  if logLevel = ascii "error" ∨ logLevel = ascii "info" ∨ logLevel = ascii "verbose" ∨
      logLevel = ascii "debug" then .ok ()
  else .error (.runtimeError ("Unknown log level: " ++ shown logLevel))

/-- The extraction loop: it ends at the first empty value. -/
def extractFilters (args : List Bytes) : Except Exn (List Bytes) :=
  match _ : getValueArg (ascii "--filter") false [] args with
  | .error exn => .error exn
  | .ok (filterConfig, rest) =>
    if _ : filterConfig ≠ [] then do
      let filterConfigs ← extractFilters rest
      return filterConfig :: filterConfigs
    else .ok []
termination_by args.length
decreasing_by exact getValueArg_shorter ‹_› ‹_›

/-- How `real_main` ends, if it does not throw: with the usage text, or in `runForever`. -/
inductive Started where
  | usage
  | running (forwarder : Constructed)

/-- What the constructor is called with, behind the help text, the log level and the loop. -/
def gathered (args : List Bytes) : Except Exn (Option (Configs × List Bytes)) :=
  let (help, args) := getBoolArgs (ascii "--help") (ascii "-h") args
  if help then .ok none
  else do
    let (configs, args) ← readConfigs args
    setLogLevel configs.logLevel
    let filterConfigs ← extractFilters args
    return some (configs, filterConfigs)

def realMain (hash : Bytes → UInt64) (args : List Bytes) : Except Exn Started := do
  match ← gathered args with
  | none => return .usage
  | some (configs, filterConfigs) =>
    let forwarder ← construct hash configs.inboundConfig configs.outboundConfig filterConfigs
    return .running forwarder

section Written

inductive OptionName where
  | inbound
  | outbound
  | log
  | filter
  deriving DecidableEq, Repr

def OptionName.text : OptionName → Bytes
  | .inbound => ascii "-i"
  | .outbound => ascii "-o"
  | .log => ascii "--log"
  | .filter => ascii "--filter"

/-- An option as it is written, as `name value` or as `name=value`. -/
structure WrittenOption where
  name : OptionName
  value : Bytes
  equalSym : Bool
  deriving DecidableEq

def WrittenOption.words (option : WrittenOption) : List Bytes :=
  if option.equalSym then [option.name.text ++ 0x3D :: option.value]
  else [option.name.text, option.value]

def argv (options : List WrittenOption) : List Bytes := options.flatMap WrittenOption.words

/-- A value that is none of the option names, nor one of them followed by an equal sign. -/
def IsValue (value : Bytes) : Prop :=
  (∀ name : OptionName, isArg name.text value = false) ∧
    value ≠ ascii "--help" ∧ value ≠ ascii "-h"

theorem forall_optionName {Demand : OptionName → Prop} :
    (∀ name, Demand name) ↔
      Demand .inbound ∧ Demand .outbound ∧ Demand .log ∧ Demand .filter := by
  constructor
  · intro all
    exact ⟨all _, all _, all _, all _⟩
  · rintro ⟨inbound, outbound, log, filter⟩ name
    cases name <;> assumption

instance (value : Bytes) : Decidable (IsValue value) :=
  haveI : Decidable (∀ name : OptionName, isArg name.text value = false) :=
    decidable_of_iff _ forall_optionName.symm
  inferInstanceAs (Decidable (_ ∧ _))

def named (name : OptionName) (options : List WrittenOption) : List WrittenOption :=
  options.filter (·.name = name)

def filterValues (options : List WrittenOption) : List Bytes :=
  (named .filter options).map WrittenOption.value

/-- `-i` and `-o` once, `--log` at most once, `--filter` any number of times. -/
structure WellFormed (options : List WrittenOption) : Prop where
  inbound_once : (named .inbound options).length = 1
  outbound_once : (named .outbound options).length = 1
  log_once : (named .log options).length ≤ 1
  values : ∀ option ∈ options, IsValue option.value

end Written

variable {options front : List WrittenOption}

theorem argv_append (front back : List WrittenOption) :
    argv (front ++ back) = argv front ++ argv back := by
  simp [argv]

theorem argv_cons (option : WrittenOption) (back : List WrittenOption) :
    argv (option :: back) = option.words ++ argv back := by
  simp [argv]

theorem isArg_text (name other : OptionName) (different : other ≠ name) (value : Bytes) :
    isArg name.text other.text = false ∧
      isArg name.text (other.text ++ 0x3D :: value) = false := by
  cases name <;> cases other <;>
    first
      | exact absurd rfl different
      | exact ⟨rfl, rfl⟩

theorem isArg_argv {name : OptionName} (values : ∀ option ∈ options, IsValue option.value)
    (others : ∀ option ∈ options, option.name ≠ name) :
    ∀ ele ∈ argv options, isArg name.text ele = false := by
  intro ele member
  obtain ⟨option, inside, word⟩ := List.mem_flatMap.mp member
  have foreign := isArg_text name option.name (others option inside) option.value
  rw [WrittenOption.words] at word
  split at word
  · rw [List.mem_singleton] at word
    exact word ▸ foreign.2
  · rcases List.mem_cons.mp word with first | second
    · exact first ▸ foreign.1
    · rw [List.mem_singleton] at second
      exact second ▸ (values option inside).1 name

theorem getValueArg_argv {name : OptionName} {option : WrittenOption} (isNamed : option.name = name)
    (back : List WrittenOption) (values : ∀ option ∈ front, IsValue option.value)
    (others : ∀ option ∈ front, option.name ≠ name) (required : Bool) (dflt : Bytes) :
    getValueArg name.text required dflt (argv (front ++ option :: back)) =
      .ok (option.value, argv (front ++ back)) := by
  have absent := isArg_argv values others
  rw [argv_append, argv_cons, argv_append, WrittenOption.words]
  split
  · rw [isNamed]
    exact getValueArg_equalSym required dflt absent option.value
  · rw [isNamed]
    exact getValueArg_name_value required dflt absent option.value

theorem exists_first {name : OptionName} (present : named name options ≠ []) :
    ∃ front option back, options = front ++ option :: back ∧ option.name = name ∧
      (∀ earlier ∈ front, earlier.name ≠ name) ∧
      named name options = option :: named name back := by
  induction options with
  | nil => exact absurd rfl present
  | cons option rest ih =>
      by_cases isNamed : option.name = name
      · refine ⟨[], option, rest, rfl, isNamed, ?_, ?_⟩
        · intro earlier member
          cases member
        · simp [named, isNamed]
      · have later : named name (option :: rest) = named name rest := by simp [named, isNamed]
        rw [later] at present ⊢
        obtain ⟨front, found, back, rfl, foundNamed, others, split⟩ := ih present
        refine ⟨option :: front, found, back, rfl, foundNamed, ?_, split⟩
        intro earlier member
        rcases List.mem_cons.mp member with same | inside
        · exact same ▸ isNamed
        · exact others earlier inside

def without (name : OptionName) (options : List WrittenOption) : List WrittenOption :=
  options.filter (·.name ≠ name)

theorem values_without (name : OptionName) (values : ∀ option ∈ options, IsValue option.value) :
    ∀ option ∈ without name options, IsValue option.value :=
  fun option member => values option (List.mem_of_mem_filter member)

theorem named_without {name other : OptionName} (different : other ≠ name) :
    named name (without other options) = named name options := by
  rw [named, without, List.filter_filter]
  apply List.filter_congr
  intro option _
  by_cases isNamed : option.name = name
  · simp [isNamed, Ne.symm different]
  · simp [isNamed]

theorem without_of_named_nil {name : OptionName} (absent : named name options = []) :
    without name options = options := by
  apply List.filter_eq_self.mpr
  intro option member
  simpa using List.filter_eq_nil_iff.mp absent option member

theorem getValueArg_once {name : OptionName} (values : ∀ option ∈ options, IsValue option.value)
    (once : (named name options).length = 1) (required : Bool) (dflt : Bytes) :
    ∃ option, named name options = [option] ∧
      getValueArg name.text required dflt (argv options) =
        .ok (option.value, argv (without name options)) := by
  have present : named name options ≠ [] := by
    intro absent
    simp [absent] at once
  obtain ⟨front, option, back, rfl, isNamed, others, split⟩ := exists_first present
  have rest : named name back = [] := by
    rw [split, List.length_cons] at once
    exact List.eq_nil_of_length_eq_zero (by omega)
  have left : without name (front ++ option :: back) = front ++ back := by
    have kept : without name front = front := by
      apply List.filter_eq_self.mpr
      intro earlier member
      simpa using others earlier member
    have dropped : without name (option :: back) = back := by
      rw [← without_of_named_nil rest]
      simp [without, isNamed]
    calc without name (front ++ option :: back)
      _ = without name front ++ without name (option :: back) := List.filter_append ..
      _ = front ++ back := by rw [kept, dropped]
  refine ⟨option, by rw [split, rest], ?_⟩
  rw [left]
  apply getValueArg_argv isNamed back _ others
  intro earlier member
  exact values earlier (List.mem_append_left _ member)

theorem getValueArg_never {name : OptionName} (values : ∀ option ∈ options, IsValue option.value)
    (absent : named name options = []) (dflt : Bytes) :
    getValueArg name.text false dflt (argv options) = .ok (dflt, argv options) := by
  have others : ∀ option ∈ options, option.name ≠ name := by
    intro option member
    simpa using List.filter_eq_nil_iff.mp absent option member
  rw [getValueArg_absent false dflt (isArg_argv values others)]
  rfl

theorem getValueArg_optional {name : OptionName}
    (values : ∀ option ∈ options, IsValue option.value)
    (few : (named name options).length ≤ 1) (dflt : Bytes) :
    getValueArg name.text false dflt (argv options) =
      .ok (((named name options).map WrittenOption.value).headD dflt,
        argv (without name options)) := by
  by_cases absent : named name options = []
  · rw [getValueArg_never values absent, absent, without_of_named_nil absent]
    rfl
  · have once : (named name options).length = 1 := by
      have positive := List.length_pos_of_ne_nil absent
      omega
    obtain ⟨option, alone, read⟩ := getValueArg_once values once false dflt
    rw [read, alone]
    rfl

theorem extractFilters_end {args rest : List Bytes}
    (read : getValueArg (ascii "--filter") false [] args = .ok ([], rest)) :
    extractFilters args = .ok [] := by
  rw [extractFilters]
  split
  · rename_i exn thrown
    rw [read] at thrown
    cases thrown
  · rename_i filterConfig left found
    rw [read, Except.ok.injEq, Prod.mk.injEq] at found
    rw [dif_neg (by simp [← found.1])]

theorem extractFilters_next {args rest : List Bytes} {filterConfig : Bytes}
    (read : getValueArg (ascii "--filter") false [] args = .ok (filterConfig, rest))
    (nonempty : filterConfig ≠ []) :
    extractFilters args = (extractFilters rest).map (filterConfig :: ·) := by
  rw [extractFilters]
  split
  · rename_i exn thrown
    rw [read] at thrown
    cases thrown
  · rename_i found left same
    rw [read, Except.ok.injEq, Prod.mk.injEq] at same
    obtain ⟨rfl, rfl⟩ := same
    rw [dif_pos nonempty]
    cases extractFilters rest <;> rfl

/-- The loop collects the values up to the first empty one. -/
theorem extractFilters_argv (values : ∀ option ∈ options, IsValue option.value) :
    extractFilters (argv options) = .ok ((filterValues options).takeWhile (· ≠ [])) := by
  induction size : options.length using Nat.strong_induction_on generalizing options with
  | _ n ih =>
      by_cases absent : named .filter options = []
      · have read := getValueArg_never values absent []
        rw [extractFilters_end read, filterValues, absent]
        rfl
      · obtain ⟨front, option, back, rfl, isNamed, others, split⟩ := exists_first absent
        have valuesFront : ∀ earlier ∈ front, IsValue earlier.value := fun earlier member =>
          values earlier (List.mem_append_left _ member)
        have read := getValueArg_argv isNamed back valuesFront others false []
        by_cases empty : option.value = []
        · rw [empty] at read
          rw [extractFilters_end read, filterValues, split]
          simp [empty]
        · have shorter : (front ++ back).length < n := by
            simp only [List.length_append, List.length_cons] at size ⊢
            omega
          have valuesRest : ∀ other ∈ front ++ back, IsValue other.value := by
            intro other member
            apply values other
            rcases List.mem_append.mp member with inFront | inBack
            · exact List.mem_append_left _ inFront
            · exact List.mem_append_right _ (List.mem_cons_of_mem _ inBack)
          have remaining : filterValues (front ++ back) =
              (named .filter back).map WrittenOption.value := by
            have none : named .filter front = [] := by
              apply List.filter_eq_nil_iff.mpr
              intro earlier member
              simpa using others earlier member
            rw [filterValues, named, List.filter_append]
            change (named .filter front ++ named .filter back).map WrittenOption.value = _
            rw [none, List.nil_append]
          rw [extractFilters_next read empty, ih _ shorter valuesRest rfl, remaining, filterValues,
            split]
          simp [Except.map, empty]

theorem filterValues_without {name : OptionName} (different : name ≠ .filter) :
    filterValues (without name options) = filterValues options := by
  rw [filterValues, filterValues, named_without different]

/-- Before the loop `-i`, `-o` and `--log` are taken out, whatever stands between them. -/
theorem readConfigs_argv (wellFormed : WellFormed options) :
    ∃ configs, readConfigs (argv options) =
        .ok (configs, argv (without .log (without .outbound (without .inbound options)))) ∧
      (named .inbound options).map WrittenOption.value = [configs.inboundConfig] ∧
      (named .outbound options).map WrittenOption.value = [configs.outboundConfig] ∧
      configs.logLevel =
        ((named .log options).map WrittenOption.value).headD (ascii "info") := by
  obtain ⟨inbound, isInbound, readInbound⟩ :=
    getValueArg_once wellFormed.values wellFormed.inbound_once true []
  have values := values_without .inbound wellFormed.values
  have outboundOnce := wellFormed.outbound_once
  rw [← named_without (show OptionName.inbound ≠ .outbound by decide)] at outboundOnce
  obtain ⟨outbound, isOutbound, readOutbound⟩ := getValueArg_once values outboundOnce true []
  rw [named_without (by decide)] at isOutbound
  have values' := values_without .outbound values
  have sameLog : named .log (without .outbound (without .inbound options)) =
      named .log options := by
    rw [named_without (by decide), named_without (by decide)]
  have readLog := getValueArg_optional values' (by rw [sameLog]; exact wellFormed.log_once)
    (ascii "info")
  rw [sameLog] at readLog
  have first : getValueArg (ascii "-i") true [] (argv options) = _ := readInbound
  have second : getValueArg (ascii "-o") true [] (argv (without .inbound options)) = _ :=
    readOutbound
  have third : getValueArg (ascii "--log") false (ascii "info")
      (argv (without .outbound (without .inbound options))) = _ := readLog
  refine ⟨⟨inbound.value, outbound.value,
    ((named .log options).map WrittenOption.value).headD (ascii "info")⟩, ?_, ?_, ?_, rfl⟩
  · simp only [readConfigs, first, second, third, bind, Except.bind, pure, Except.pure]
  · rw [isInbound]
    rfl
  · rw [isOutbound]
    rfl

theorem getBoolArgs_argv (values : ∀ option ∈ options, IsValue option.value) :
    getBoolArgs (ascii "--help") (ascii "-h") (argv options) = (false, argv options) := by
  have foreign : ∀ ele ∈ argv options, ele ≠ ascii "--help" ∧ ele ≠ ascii "-h" := by
    intro ele member
    obtain ⟨option, inside, word⟩ := List.mem_flatMap.mp member
    rw [WrittenOption.words] at word
    split at word
    · rw [List.mem_singleton] at word
      subst word
      cases option.name <;>
        exact ⟨by simp [OptionName.text, ascii], by simp [OptionName.text, ascii]⟩
    · rcases List.mem_cons.mp word with first | second
      · subst first
        cases option.name <;> decide
      · rw [List.mem_singleton] at second
        exact second ▸ (values option inside).2
  have long : ascii "--help" ∉ argv options := fun member => (foreign _ member).1 rfl
  have short : ascii "-h" ∉ argv options := fun member => (foreign _ member).2 rfl
  simp only [getBoolArgs, getBoolArg, long, short, if_false, Bool.false_eq_true]

def logLevel (options : List WrittenOption) : Bytes :=
  ((named .log options).map WrittenOption.value).headD (ascii "info")

def extracted (options : List WrittenOption) : List Bytes :=
  (filterValues options).takeWhile (· ≠ [])

theorem extracted_eq_iff :
    extracted options = filterValues options ↔ ∀ value ∈ filterValues options, value ≠ [] := by
  rw [extracted, List.takeWhile_eq_self_iff]
  simp

theorem gathered_argv (wellFormed : WellFormed options) :
    ∃ configs : Configs,
      (named .inbound options).map WrittenOption.value = [configs.inboundConfig] ∧
      (named .outbound options).map WrittenOption.value = [configs.outboundConfig] ∧
      gathered (argv options) = (do
        setLogLevel (logLevel options)
        return some (configs, extracted options)) := by
  obtain ⟨configs, read, inbound, outbound, level⟩ := readConfigs_argv wellFormed
  have values := values_without .log (values_without .outbound
    (values_without .inbound wellFormed.values))
  have same : filterValues (without .log (without .outbound (without .inbound options))) =
      filterValues options := by
    rw [filterValues_without (by decide), filterValues_without (by decide),
      filterValues_without (by decide)]
  have loop := extractFilters_argv values
  rw [same] at loop
  refine ⟨configs, inbound, outbound, ?_⟩
  simp only [gathered, getBoolArgs_argv wellFormed.values, Bool.false_eq_true, if_false, read,
    bind, Except.bind, loop, level, logLevel, extracted]

theorem setLogLevel_ok_iff (level : Bytes) : setLogLevel level = .ok () ↔
    level ∈ [ascii "error", ascii "info", ascii "verbose", ascii "debug"] := by
  simp only [setLogLevel, List.mem_cons, List.not_mem_nil, or_false]
  split <;> simp_all

theorem accepted_of_createFilters {hash : Bytes → UInt64} {filterConfigs : List Bytes}
    {filters : List BaseFilter} (accepted : createFilters hash filterConfigs = .ok filters) :
    ∀ filterConfig ∈ filterConfigs,
      ∃ newFilter, createFilterFromConfig hash filterConfig = .ok newFilter := by
  induction filterConfigs generalizing filters with
  | nil =>
      intro filterConfig member
      cases member
  | cons first rest ih =>
      rw [createFilters_cons] at accepted
      cases head : createFilterFromConfig hash first with
      | error exn =>
          rw [head] at accepted
          cases accepted
      | ok newFilter =>
          cases tail : createFilters hash rest with
          | error exn =>
              rw [head, tail] at accepted
              cases accepted
          | ok others =>
              intro filterConfig member
              rcases List.mem_cons.mp member with same | later
              · exact ⟨newFilter, same ▸ head⟩
              · exact ih tail filterConfig later

end UdpForwarder.CommandLine
