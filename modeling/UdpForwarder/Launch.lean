import UdpForwarder.CommandLine
import UdpForwarder.FilterConfig

/-! The command lines that come to `runForever`, what the forwarder is that runs, and which of
them lose a filter. -/

namespace UdpForwarder.Launch

open CommandLine Endpoint FilterConfig Filters Forwarder OptParser

variable {hash : Bytes → UInt64} {options : List WrittenOption}

theorem bind_eq_ok {Value Result : Type} {first : Except Exn Value}
    {rest : Value → Except Exn Result} {result : Result} :
    (first >>= rest) = .ok result ↔ ∃ value, first = .ok value ∧ rest value = .ok result := by
  cases first <;> simp [bind, Except.bind]

theorem bind_eq_error {Value Result : Type} {first : Except Exn Value}
    {rest : Value → Except Exn Result} {exn : Exn} :
    (first >>= rest) = .error exn ↔
      first = .error exn ∨ ∃ value, first = .ok value ∧ rest value = .error exn := by
  cases first <;> simp [bind, Except.bind]

theorem error_iff {Value : Type} (outcome : Except Exn Value) :
    (∃ exn, outcome = .error exn) ↔ ¬ ∃ value, outcome = .ok value := by
  cases outcome <;> simp

/-- A `plain` endpoint: two dividers, and behind the second a port that `std::stoul` reads, or
nothing. -/
def Loadable (config : Bytes) : Prop :=
  startsWith config (ascii "plain") = true ∧ ∃ method addr port, IsSplit config method addr port ∧
    (port = [] ∨ ¬ Unreadable port)

theorem parse_ok_iff (config : Bytes) :
    (∃ endpoint, parse config = .ok endpoint) ↔ ∃ method addr port,
      IsSplit config method addr port ∧ (port = [] ∨ ¬ Unreadable port) := by
  have readable (port : Bytes) :
      (∃ number, asUInt16 port = .ok number) ↔ port = [] ∨ ¬ Unreadable port := by
    rw [← not_iff_not, ← error_iff, asUInt16_error_iff, not_or, not_not]
  constructor
  · rintro ⟨endpoint, parsed⟩
    by_cases divided : ∃ method addr port, IsSplit config method addr port
    · obtain ⟨method, addr, port, parts⟩ := divided
      refine ⟨method, addr, port, parts, (readable port).mp ?_⟩
      rw [parse_split parts] at parsed
      cases converted : asUInt16 port with
      | ok number => exact ⟨number, rfl⟩
      | error exn =>
          rw [converted] at parsed
          cases parsed
    · rw [parse_unsplit divided] at parsed
      cases parsed
  · rintro ⟨method, addr, port, parts, reads⟩
    obtain ⟨number, converted⟩ := (readable port).mpr reads
    rw [parse_split parts, converted]
    exact ⟨_, rfl⟩

section Endpoints

variable {Loaded : Type} {loadConfig : Bytes → Except Exn Loaded} {unknown : String}
  {config : Bytes} {endpoint : Loaded}

theorem constructEndpoint_ok_iff (loads : (∃ endpoint, loadConfig config = .ok endpoint) ↔
      ∃ parsed, parse config = .ok parsed) :
    (∃ endpoint, constructEndpoint loadConfig unknown config = .ok endpoint) ↔
      Loadable config := by
  rw [Loadable, ← parse_ok_iff, constructEndpoint]
  by_cases plain : startsWith config (ascii "plain") = true
  · simp only [plain, if_true, true_and, loads]
  · rw [if_neg plain]
    split <;> simp [plain]

theorem plain_ne_dynport (plain : startsWith config (ascii "plain") = true) :
    startsWith config (ascii "dynport") = false := by
  obtain ⟨rest, rfl⟩ := List.isPrefixOf_iff_prefix.mp plain
  rfl

theorem constructEndpoint_undefined_iff
    (defined : loadConfig config ≠ .error .undefinedBehaviour) :
    constructEndpoint loadConfig unknown config = .error .undefinedBehaviour ↔
      startsWith config (ascii "dynport") = true := by
  rw [constructEndpoint]
  by_cases plain : startsWith config (ascii "plain") = true
  · rw [if_pos plain, plain_ne_dynport plain]
    simp [defined]
  · rw [if_neg plain]
    split <;> simp_all

theorem loadConfig_of_constructEndpoint
    (constructed : constructEndpoint loadConfig unknown config = .ok endpoint) :
    loadConfig config = .ok endpoint := by
  rw [constructEndpoint] at constructed
  split at constructed
  · exact constructed
  · split at constructed <;> cases constructed

end Endpoints

theorem constructInbound_ok_iff (config : Bytes) :
    (∃ ptrInbound, constructInbound config = .ok ptrInbound) ↔ Loadable config := by
  apply constructEndpoint_ok_iff
  rw [PlainInbound.loadConfig]
  cases parse config <;> simp [bind, Except.bind, pure, Except.pure]

theorem constructOutbound_ok_iff (config : Bytes) :
    (∃ ptrOutbound, constructOutbound config = .ok ptrOutbound) ↔ Loadable config := by
  apply constructEndpoint_ok_iff
  rw [PlainOutbound.loadConfig]
  cases parse config <;> simp [bind, Except.bind, pure, Except.pure]

theorem createFilterFromConfig_ok_iff (hash : Bytes → UInt64) (filterConfig : Bytes) :
    (∃ newFilter, createFilterFromConfig hash filterConfig = .ok newFilter) ↔
      InLanguage filterConfig := by
  constructor
  · rintro ⟨newFilter, accepted⟩
    by_contra outside
    have rejected : ∃ what, createFilterFromConfig hash filterConfig =
        .error (.invalidArgument what) := createFilterFromConfig_rejects filterConfig outside
    obtain ⟨what, thrown⟩ := rejected
    cases accepted.symm.trans thrown
  · rintro ⟨depth, method, password, clean, rfl⟩
    obtain ⟨base, loaded⟩ := loadBase_ok clean method
    obtain ⟨newFilter, accepted, _⟩ := createFilterFromConfig_written depth method loaded
    exact ⟨newFilter, accepted⟩

theorem createFilters_ok_iff (hash : Bytes → UInt64) (filterConfigs : List Bytes) :
    (∃ filters, createFilters hash filterConfigs = .ok filters) ↔
      ∀ filterConfig ∈ filterConfigs, InLanguage filterConfig := by
  constructor
  · rintro ⟨filters, accepted⟩ filterConfig member
    exact (createFilterFromConfig_ok_iff hash filterConfig).mp
      (accepted_of_createFilters accepted filterConfig member)
  · intro inside
    induction filterConfigs with
    | nil => exact ⟨[], rfl⟩
    | cons first rest ih =>
        obtain ⟨newFilter, accepted⟩ :=
          (createFilterFromConfig_ok_iff hash first).mpr (inside first List.mem_cons_self)
        obtain ⟨others, later⟩ := ih fun filterConfig member =>
          inside filterConfig (List.mem_cons_of_mem _ member)
        rw [createFilters_cons, accepted, later]
        exact ⟨newFilter :: others, rfl⟩

theorem createFilterFromConfig_error {filterConfig : Bytes} {exn : Exn}
    (thrown : createFilterFromConfig hash filterConfig = .error exn) :
    ∃ what, exn = .invalidArgument what := by
  have outside : ¬ InLanguage filterConfig := by
    rw [← createFilterFromConfig_ok_iff hash, ← error_iff]
    exact ⟨exn, thrown⟩
  have rejected : ∃ what, createFilterFromConfig hash filterConfig =
      .error (.invalidArgument what) := createFilterFromConfig_rejects filterConfig outside
  obtain ⟨what, refused⟩ := rejected
  exact ⟨what, Except.error.inj (thrown.symm.trans refused)⟩

theorem createFilters_error {filterConfigs : List Bytes} {exn : Exn}
    (thrown : createFilters hash filterConfigs = .error exn) :
    ∃ what, exn = .invalidArgument what := by
  induction filterConfigs with
  | nil => cases thrown
  | cons first rest ih =>
      rw [createFilters_cons, bind_eq_error] at thrown
      rcases thrown with refused | ⟨newFilter, _, later⟩
      · exact createFilterFromConfig_error refused
      · rcases bind_eq_error.mp later with refused | ⟨others, _, impossible⟩
        · exact ih refused
        · cases impossible

theorem ptrFilter_error {filterConfigs : List Bytes} {exn : Exn}
    (thrown : ptrFilter hash filterConfigs = .error exn) :
    ∃ what, exn = .invalidArgument what := by
  rcases bind_eq_error.mp thrown with refused | ⟨filters, _, impossible⟩
  · exact createFilters_error refused
  · cases impossible

theorem construct_ok_iff {inboundConfig outboundConfig : Bytes} {filterConfigs : List Bytes}
    {forwarder : Constructed} :
    construct hash inboundConfig outboundConfig filterConfigs = .ok forwarder ↔
      constructInbound inboundConfig = .ok forwarder.ptrInbound ∧
      constructOutbound outboundConfig = .ok forwarder.ptrOutbound ∧
      ptrFilter hash filterConfigs = .ok forwarder.ptrFilter := by
  simp only [construct, bind_eq_ok, pure, Except.pure, Except.ok.injEq]
  constructor
  · rintro ⟨ptrInbound, inbound, ptrOutbound, outbound, filter, accepted, rfl⟩
    exact ⟨inbound, outbound, accepted⟩
  · rintro ⟨inbound, outbound, accepted⟩
    exact ⟨_, inbound, _, outbound, _, accepted, rfl⟩

/-- The constructor comes to a `dynport` endpoint, and calls `loadConfig` on a null pointer. -/
def NullCalled (inboundConfig outboundConfig : Bytes) : Prop :=
  startsWith inboundConfig (ascii "dynport") = true ∨
    Loadable inboundConfig ∧ startsWith outboundConfig (ascii "dynport") = true

theorem parse_ne_undefined (config : Bytes) : parse config ≠ .error .undefinedBehaviour := by
  intro undefined
  by_cases divided : ∃ method addr port, IsSplit config method addr port
  · obtain ⟨method, addr, port, parts⟩ := divided
    rw [parse_split parts, asUInt16, asUnsignedLong, stoul] at undefined
    split at undefined
    · cases undefined
    · repeat' split at undefined
      all_goals cases undefined
  · rw [parse_unsplit divided] at undefined
    cases undefined

theorem constructInbound_undefined_iff (config : Bytes) :
    constructInbound config = .error .undefinedBehaviour ↔
      startsWith config (ascii "dynport") = true := by
  apply constructEndpoint_undefined_iff
  rw [PlainInbound.loadConfig, ne_eq, bind_eq_error]
  simp [parse_ne_undefined, pure, Except.pure]

theorem constructOutbound_undefined_iff (config : Bytes) :
    constructOutbound config = .error .undefinedBehaviour ↔
      startsWith config (ascii "dynport") = true := by
  apply constructEndpoint_undefined_iff
  rw [PlainOutbound.loadConfig, ne_eq, bind_eq_error]
  simp [parse_ne_undefined, pure, Except.pure]

theorem construct_undefined_iff {inboundConfig outboundConfig : Bytes}
    {filterConfigs : List Bytes} :
    construct hash inboundConfig outboundConfig filterConfigs = .error .undefinedBehaviour ↔
      NullCalled inboundConfig outboundConfig := by
  have filters : ptrFilter hash filterConfigs ≠ .error .undefinedBehaviour := by
    intro undefined
    obtain ⟨what, impossible⟩ := ptrFilter_error undefined
    cases impossible
  simp only [construct, bind_eq_error, constructInbound_undefined_iff,
    constructOutbound_undefined_iff, filters, pure, Except.pure, reduceCtorEq, and_false,
    exists_false, or_false, exists_and_right, constructInbound_ok_iff, NullCalled]

/-- A filter outside of the language is not constructed; and behind two endpoints that load, it is
the exception that is thrown. -/
theorem construct_error {inboundConfig outboundConfig : Bytes} {filterConfigs : List Bytes}
    (outside : ¬ ∀ filterConfig ∈ filterConfigs, InLanguage filterConfig) :
    ∃ exn, construct hash inboundConfig outboundConfig filterConfigs = .error exn ∧
      (Loadable inboundConfig → Loadable outboundConfig → ∃ what, exn = .invalidArgument what) := by
  rw [← createFilters_ok_iff hash] at outside
  obtain ⟨refusal, refused⟩ := (error_iff _).mpr outside
  have filters : ptrFilter hash filterConfigs = .error refusal := by
    rw [ptrFilter, refused]
    rfl
  have thrown : ∃ exn, construct hash inboundConfig outboundConfig filterConfigs =
      .error exn := by
    apply (error_iff _).mpr
    rintro ⟨forwarder, constructed⟩
    cases (construct_ok_iff.mp constructed).2.2.symm.trans filters
  obtain ⟨exn, thrown⟩ := thrown
  refine ⟨exn, thrown, fun inbound outbound => ?_⟩
  obtain ⟨ptrInbound, inboundLoads⟩ := (constructInbound_ok_iff _).mpr inbound
  obtain ⟨ptrOutbound, outboundLoads⟩ := (constructOutbound_ok_iff _).mpr outbound
  have last : construct hash inboundConfig outboundConfig filterConfigs = .error refusal := by
    rw [construct, inboundLoads, outboundLoads, filters]
    rfl
  rw [Except.error.inj (thrown.symm.trans last)]
  exact ptrFilter_error filters

def CallsNull (options : List WrittenOption) : Prop :=
  ∃ inboundConfig ∈ (named .inbound options).map WrittenOption.value,
    ∃ outboundConfig ∈ (named .outbound options).map WrittenOption.value,
      NullCalled inboundConfig outboundConfig

theorem callsNull_iff {inboundConfig outboundConfig : Bytes}
    (inbound : (named .inbound options).map WrittenOption.value = [inboundConfig])
    (outbound : (named .outbound options).map WrittenOption.value = [outboundConfig]) :
    CallsNull options ↔ NullCalled inboundConfig outboundConfig := by
  simp [CallsNull, inbound, outbound]

/-- What is to happen to the filters of a command line: main's loop collects all of them in their
order, and with one that is no filter configuration the constructor throws, that filter's invalid
argument unless an endpoint is refused first. -/
def NoFilterLost (hash : Bytes → UInt64) (options : List WrittenOption) : Prop :=
  ∃ configs, gathered (argv options) = .ok (some (configs, filterValues options)) ∧
    ∀ value ∈ filterValues options, ¬ InLanguage value →
      ∃ exn, construct hash configs.inboundConfig configs.outboundConfig (filterValues options) =
          .error exn ∧
        realMain hash (argv options) = .error exn ∧ exn ≠ .undefinedBehaviour ∧
        (Loadable configs.inboundConfig → Loadable configs.outboundConfig →
          ∃ what, exn = .invalidArgument what)

/-- The command lines whose filters are not lost: the log level is known, no filter is empty, and
where one is no filter configuration, no null pointer is called before it. -/
theorem noFilterLost_iff (hash : Bytes → UInt64) (wellFormed : WellFormed options) :
    NoFilterLost hash options ↔
      logLevel options ∈ [ascii "error", ascii "info", ascii "verbose", ascii "debug"] ∧
      (∀ value ∈ filterValues options, value ≠ []) ∧
      (CallsNull options → ∀ value ∈ filterValues options, InLanguage value) := by
  obtain ⟨configs, inbound, outbound, arguments⟩ := gathered_argv wellFormed
  rw [callsNull_iff inbound outbound]
  constructor
  · rintro ⟨others, collected, rejected⟩
    rw [arguments] at collected
    obtain ⟨_, level, same⟩ := bind_eq_ok.mp collected
    injection same with same
    injection same with same
    injection same with sameConfigs sameFilters
    subst sameConfigs
    refine ⟨(setLogLevel_ok_iff _).mp level, extracted_eq_iff.mp sameFilters, ?_⟩
    intro null value member
    by_contra outside
    obtain ⟨exn, thrown, _, defined, _⟩ := rejected value member outside
    rw [construct_undefined_iff.mpr null] at thrown
    exact defined (Except.error.inj thrown).symm
  · rintro ⟨level, nonempty, reached⟩
    have collected : gathered (argv options) = .ok (some (configs, filterValues options)) := by
      rw [arguments, (setLogLevel_ok_iff _).mpr level, extracted_eq_iff.mpr nonempty]
      rfl
    refine ⟨configs, collected, fun value member outside => ?_⟩
    have strange : ¬ ∀ filterConfig ∈ filterValues options, InLanguage filterConfig :=
      fun inside => outside (inside value member)
    obtain ⟨exn, thrown, last⟩ := construct_error strange
    refine ⟨exn, thrown, ?_, ?_, last⟩
    · rw [realMain, collected]
      change (construct hash _ _ _ >>= _) = _
      rw [thrown]
      rfl
    · rintro rfl
      exact strange (reached (construct_undefined_iff.mp thrown))

theorem noFilterLost_iff_two :
    NoFilterLost (fun _ => 0x4d6686d362067ff9)
      [⟨.inbound, ascii "plain@::1@1000", false⟩, ⟨.filter, ascii "aes@hello world", true⟩,
        ⟨.outbound, ascii "plain@::1@2000", false⟩,
        ⟨.filter, ascii "reverse@rot13@hello", false⟩] := by
  refine (noFilterLost_iff _ ?_).mpr ⟨by decide, by decide, ?_⟩
  · exact ⟨rfl, rfl, by decide, by decide⟩
  · rintro ⟨inboundConfig, inbound, outboundConfig, outbound, null⟩
    obtain rfl : inboundConfig = ascii "plain@::1@1000" := List.mem_singleton.mp inbound
    obtain rfl : outboundConfig = ascii "plain@::1@2000" := List.mem_singleton.mp outbound
    rcases null with first | ⟨_, second⟩
    · cases first
    · cases second

/-- An empty value in front of the only filter, and the forwarder runs without any. -/
theorem filter_lost :
    ¬ NoFilterLost (fun _ => 0x4d6686d362067ff9)
        [⟨.inbound, ascii "plain@::1@1000", false⟩, ⟨.outbound, ascii "plain@::1@2000", false⟩,
          ⟨.filter, [], true⟩, ⟨.filter, ascii "aes@hello world", false⟩] ∧
      ∃ forwarder, realMain (fun _ => 0x4d6686d362067ff9) [ascii "-i", ascii "plain@::1@1000",
          ascii "-o", ascii "plain@::1@2000", ascii "--filter=", ascii "--filter",
          ascii "aes@hello world"] = .ok (.running forwarder) ∧
        ∀ datagram, forwarder.ptrFilter.convertForward datagram = some datagram := by
  have read : readConfigs [ascii "-i", ascii "plain@::1@1000", ascii "-o",
      ascii "plain@::1@2000", ascii "--filter=", ascii "--filter", ascii "aes@hello world"] =
        .ok (⟨ascii "plain@::1@1000", ascii "plain@::1@2000", ascii "info"⟩,
          [ascii "--filter=", ascii "--filter", ascii "aes@hello world"]) := by
    rfl
  have first : getValueArg (ascii "--filter") false []
      [ascii "--filter=", ascii "--filter", ascii "aes@hello world"] =
        .ok ([], [ascii "--filter", ascii "aes@hello world"]) := by
    rfl
  have help : getBoolArgs (ascii "--help") (ascii "-h") [ascii "-i", ascii "plain@::1@1000",
      ascii "-o", ascii "plain@::1@2000", ascii "--filter=", ascii "--filter",
      ascii "aes@hello world"] = (false, [ascii "-i", ascii "plain@::1@1000", ascii "-o",
        ascii "plain@::1@2000", ascii "--filter=", ascii "--filter", ascii "aes@hello world"]) := by
    decide
  have alone : gathered [ascii "-i", ascii "plain@::1@1000", ascii "-o", ascii "plain@::1@2000",
      ascii "--filter=", ascii "--filter", ascii "aes@hello world"] =
        .ok (some (⟨ascii "plain@::1@1000", ascii "plain@::1@2000", ascii "info"⟩, [])) := by
    simp only [gathered, help, Bool.false_eq_true, if_false, read, bind, Except.bind,
      extractFilters_end first]
    rfl
  constructor
  · rintro ⟨configs, collected, _⟩
    have same := alone.symm.trans collected
    injection same with same
    injection same with same
    cases congrArg Prod.snd same
  · refine ⟨⟨⟨ascii "::1", 1000⟩, ⟨ascii "::1", 2000⟩, chainedFilters []⟩, ?_, fun _ => rfl⟩
    rw [realMain, alone]
    rfl

theorem realMain_argv (hash : Bytes → UInt64) (wellFormed : WellFormed options) :
    ∃ inboundConfig outboundConfig,
      (named .inbound options).map WrittenOption.value = [inboundConfig] ∧
      (named .outbound options).map WrittenOption.value = [outboundConfig] ∧
      realMain hash (argv options) = (do
        setLogLevel (logLevel options)
        let forwarder ← construct hash inboundConfig outboundConfig (extracted options)
        return .running forwarder) := by
  obtain ⟨configs, inbound, outbound, arguments⟩ := gathered_argv wellFormed
  refine ⟨configs.inboundConfig, configs.outboundConfig, inbound, outbound, ?_⟩
  rw [realMain, arguments]
  cases setLogLevel (logLevel options) <;> rfl

/-- Everything that is said on the command line is understood. -/
structure Runnable (options : List WrittenOption) : Prop where
  level : logLevel options ∈ [ascii "error", ascii "info", ascii "verbose", ascii "debug"]
  inbound : ∀ config ∈ (named .inbound options).map WrittenOption.value, Loadable config
  outbound : ∀ config ∈ (named .outbound options).map WrittenOption.value, Loadable config
  filters : ∀ filterConfig ∈ extracted options, InLanguage filterConfig

theorem running_iff (wellFormed : WellFormed options) (forwarder : Constructed) :
    realMain hash (argv options) = .ok (.running forwarder) ↔
      setLogLevel (logLevel options) = .ok () ∧
      (∀ config ∈ (named .inbound options).map WrittenOption.value,
        constructInbound config = .ok forwarder.ptrInbound) ∧
      (∀ config ∈ (named .outbound options).map WrittenOption.value,
        constructOutbound config = .ok forwarder.ptrOutbound) ∧
      ptrFilter hash (extracted options) = .ok forwarder.ptrFilter := by
  obtain ⟨inboundConfig, outboundConfig, inbound, outbound, main⟩ :=
    realMain_argv hash wellFormed
  rw [inbound, outbound, main]
  simp only [bind_eq_ok, pure, Except.pure, Except.ok.injEq, Started.running.injEq,
    exists_eq_right, construct_ok_iff, List.forall_mem_singleton]
  exact ⟨fun ⟨_, level, parts⟩ => ⟨level, parts⟩, fun ⟨level, parts⟩ => ⟨(), level, parts⟩⟩

theorem realMain_ne_usage (wellFormed : WellFormed options) :
    realMain hash (argv options) ≠ .ok .usage := by
  obtain ⟨inboundConfig, outboundConfig, _, _, main⟩ := realMain_argv hash wellFormed
  rw [main]
  simp [bind_eq_ok, pure, Except.pure]

/-- Undefined behaviour is reached behind the log level only, and at `dynport` only. -/
theorem realMain_undefined_iff (hash : Bytes → UInt64) (wellFormed : WellFormed options) :
    realMain hash (argv options) = .error .undefinedBehaviour ↔
      logLevel options ∈ [ascii "error", ascii "info", ascii "verbose", ascii "debug"] ∧
      CallsNull options := by
  obtain ⟨inboundConfig, outboundConfig, inbound, outbound, main⟩ :=
    realMain_argv hash wellFormed
  have level : setLogLevel (logLevel options) ≠ .error .undefinedBehaviour := by
    rw [setLogLevel]
    split <;> simp
  simp only [callsNull_iff inbound outbound, main, bind_eq_error, level, false_or, pure,
    Except.pure, reduceCtorEq, and_false, exists_false, or_false, construct_undefined_iff,
    exists_and_right, ← setLogLevel_ok_iff]
  apply and_congr_left
  intro _
  constructor
  · rintro ⟨_, known⟩
    exact known
  · intro known
    exact ⟨(), known⟩

theorem exists_running_iff (wellFormed : WellFormed options) :
    (∃ forwarder, realMain hash (argv options) = .ok (.running forwarder)) ↔
      Runnable options := by
  simp only [running_iff wellFormed]
  constructor
  · rintro ⟨forwarder, level, inbound, outbound, accepted⟩
    refine ⟨(setLogLevel_ok_iff _).mp level, ?_, ?_, ?_⟩
    · intro config member
      exact (constructInbound_ok_iff config).mp ⟨_, inbound config member⟩
    · intro config member
      exact (constructOutbound_ok_iff config).mp ⟨_, outbound config member⟩
    · apply (createFilters_ok_iff hash _).mp
      obtain ⟨filters, created, _⟩ := bind_eq_ok.mp accepted
      exact ⟨filters, created⟩
  · rintro ⟨level, inbound, outbound, filters⟩
    obtain ⟨inboundConfig, outboundConfig, isInbound, isOutbound, _⟩ :=
      realMain_argv hash wellFormed
    rw [isInbound, List.forall_mem_singleton, ← constructInbound_ok_iff] at inbound
    rw [isOutbound, List.forall_mem_singleton, ← constructOutbound_ok_iff] at outbound
    obtain ⟨ptrInbound, inboundLoads⟩ := inbound
    obtain ⟨ptrOutbound, outboundLoads⟩ := outbound
    obtain ⟨chain, created⟩ := (createFilters_ok_iff hash _).mpr filters
    have accepted : ptrFilter hash (extracted options) = .ok (chainedFilters chain) := by
      rw [ptrFilter, created]
      rfl
    refine ⟨⟨ptrInbound, ptrOutbound, chainedFilters chain⟩,
      (setLogLevel_ok_iff _).mpr level, ?_, ?_, accepted⟩
    · rw [isInbound, List.forall_mem_singleton]
      exact inboundLoads
    · rw [isOutbound, List.forall_mem_singleton]
      exact outboundLoads

/-- A well formed command line comes to `runForever` exactly if everything on it is understood up
to the first empty filter, whatever the passwords are hashed to; otherwise it throws, or, with
`dynport`, calls a null pointer. And what runs are the endpoints and the filters that were written,
in their order. -/
theorem runs_iff (hash : Bytes → UInt64) (wellFormed : WellFormed options) :
    ((∃ forwarder, realMain hash (argv options) = .ok (.running forwarder)) ↔
      Runnable options) ∧
    (¬ Runnable options → ∃ exn, realMain hash (argv options) = .error exn ∧
      (exn = .undefinedBehaviour ↔
        logLevel options ∈ [ascii "error", ascii "info", ascii "verbose", ascii "debug"] ∧
        CallsNull options)) ∧
    ∀ forwarder, realMain hash (argv options) = .ok (.running forwarder) →
      (∀ config ∈ (named .inbound options).map WrittenOption.value,
        PlainInbound.loadConfig config = .ok forwarder.ptrInbound) ∧
      (∀ config ∈ (named .outbound options).map WrittenOption.value,
        PlainOutbound.loadConfig config = .ok forwarder.ptrOutbound) ∧
      ptrFilter hash (extracted options) = .ok forwarder.ptrFilter := by
  refine ⟨exists_running_iff wellFormed, ?_, ?_⟩
  · intro strange
    have thrown : ∃ exn, realMain hash (argv options) = .error exn := by
      apply (error_iff _).mpr
      rintro ⟨started, ran⟩
      cases started with
      | usage => exact realMain_ne_usage wellFormed ran
      | running forwarder => exact strange ((exists_running_iff wellFormed).mp ⟨forwarder, ran⟩)
    obtain ⟨exn, thrown⟩ := thrown
    refine ⟨exn, thrown, ?_⟩
    rw [← realMain_undefined_iff hash wellFormed, thrown, Except.error.injEq]
  · intro forwarder running
    obtain ⟨_, inbound, outbound, accepted⟩ := (running_iff wellFormed forwarder).mp running
    exact ⟨fun config member => loadConfig_of_constructEndpoint (inbound config member),
      fun config member => loadConfig_of_constructEndpoint (outbound config member), accepted⟩

/-- A port with a letter behind it, and a filter behind an empty one that is none: it runs. -/
theorem runs_iff_careless : ∃ forwarder,
    realMain (fun _ => 0x4d6686d362067ff9) (argv
      [⟨.outbound, ascii "plain@::1@2000", false⟩, ⟨.filter, [], true⟩,
        ⟨.inbound, ascii "plain@::1@80x", false⟩, ⟨.filter, ascii "rot13@x", false⟩]) =
      .ok (.running forwarder) := by
  refine (runs_iff _ ?_).1.mpr ⟨by decide, ?_, ?_, ?_⟩
  · exact ⟨rfl, rfl, by decide, by decide⟩
  · intro config member
    obtain rfl : config = ascii "plain@::1@80x" := List.mem_singleton.mp member
    refine ⟨rfl, ascii "plain", ascii "::1", ascii "80x", ?_, .inr ?_⟩
    · exact ⟨by decide, by decide, by decide, rfl⟩
    · rw [Unreadable]
      decide
  · intro config member
    obtain rfl : config = ascii "plain@::1@2000" := List.mem_singleton.mp member
    refine ⟨rfl, ascii "plain", ascii "::1", ascii "2000", ?_, .inr ?_⟩
    · exact ⟨by decide, by decide, by decide, rfl⟩
    · rw [Unreadable]
      decide
  · intro filterConfig member
    cases member

end UdpForwarder.Launch
