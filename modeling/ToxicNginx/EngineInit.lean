import ToxicNginx.OutputChain

/-!
# How often the PHP engine is initialized

`ngx_http_toxic` is called for every `toxic` directive of every configuration
the process parses.  Its guard `first_time_run` is a `static int` of `toxic.h`,
so `toxic.c` has a copy of its own, and the handler sets the copy it tests.
A second `php_embed_init` copies `php_embed_module` over `sapi_module` and finds
the modules started, so that nothing sets `sapi_module.treat_data` again.
`Start` is one name in the engine's one function table.

* `EngineGlobals` — the globals of the module, of `toxic.c` and of the engine;
* `phpEmbedInit` — a call that comes back, or dereferences NULL;
* `ngxHttpToxic`, `parseDirectives`, `parseConf` — one directive, one
  configuration, and what a process makes of it;
* `processed` — the directives whose text would be evaluated;
* `Parsed` — what any sequence of configurations leaves, by one step lemma for
  a directive and one for a configuration;
* `initializedOnce_iff` — the engine is initialized once, and every location
  runs its own `Start`, exactly when one directive is processed;
* `crashed_iff` — the process does not survive a second one, unless the ini file
  keeps the query string and the cookies out of `variables_order`.
-/

namespace Toxic

/-- A `toxic` directive: the location it stands in, and its argument. -/
structure Directive where
  location : Nat
  name : Bytes
  deriving DecidableEq, Repr

/-- The process globals: both copies of `first_time_run`, `toxic_string`, how
often `first_init` and `php_embed_init` were called, `module_initialized`, whether
`sapi_module.treat_data` is set, and `Start` in `EG(function_table)`. -/
structure EngineGlobals (Fn : Type) where
  firstTimeRun : Nat
  firstTimeRunToxic : Nat
  toxicString : Bytes
  firstInits : Nat
  embedInits : Nat
  moduleInitialized : Bool
  treatData : Bool
  start : Option Fn
  deriving DecidableEq, Repr

/-- A process: its engine, the directives of the configuration it runs on, whose
locations have `ngx_http_toxic_handler`, and whether it has crashed. -/
structure Master (Fn : Type) where
  engine : EngineGlobals Fn
  cycle : List Directive
  crashed : Bool
  deriving DecidableEq, Repr

/-- How the handler of a directive ends, and the parse of a configuration. -/
inductive ConfAnswer
  | ok
  | error
  /-- A NULL function pointer is called. -/
  | crash
  deriving DecidableEq, Repr

/-- `variables_order` without an ini file. -/
def defaultVariablesOrder : Bytes := [69, 71, 80, 67, 83]

/-- `php_request_startup` calls `sapi_module.treat_data`, for `$_GET` or `$_COOKIE`;
without a request method it does not for `$_POST`. -/
def treatsData (variablesOrder : Bytes) : Bool :=
  variablesOrder.any fun c => c = 71 || c = 103 || c = 67 || c = 99

variable {Fn : Type} (declares : Bytes → Option Fn) (variablesOrder : Bytes)

/-- `first_init`, which sets the copy of `toxic.c`. -/
def firstInit (e : EngineGlobals Fn) : EngineGlobals Fn :=
  { e with firstTimeRunToxic := 1, firstInits := e.firstInits + 1 }

/-- `php_embed_init`: whether it comes back.  `sapi_startup` copies
`php_embed_module`, which has no `treat_data`; `php_module_startup` sets the one of
`sapi_module` unless the modules have been started; and `php_request_startup` may
call it. -/
def phpEmbedInit (e : EngineGlobals Fn) : Bool × EngineGlobals Fn :=
  let e := { e with
    embedInits := e.embedInits + 1
    treatData := !e.moduleInitialized
    moduleInitialized := true }
  (e.treatData || !treatsData variablesOrder, e)

/-- `zend_eval_string`: `declares` says which `Start` a text declares.  A
function cannot be declared twice; the error is caught by `zend_end_try`. -/
def zendEvalString (name : Bytes) (e : EngineGlobals Fn) : EngineGlobals Fn :=
  { e with start := e.start.or (declares name) }

/-- `ngx_http_toxic`. -/
def ngxHttpToxic (d : Directive) (e : EngineGlobals Fn) : ConfAnswer × EngineGlobals Fn :=
  let e := { e with firstTimeRun := 1 }
  if d.name = [] then (.error, e)
  else
    let e := { e with toxicString := d.name }
    if e.firstTimeRun = 1 then
      match phpEmbedInit variablesOrder (firstInit e) with
      | (false, e) => (.crash, e)
      | (true, e) => (.ok, { zendEvalString declares d.name e with firstTimeRun := 0 })
    else (.ok, e)

/-- The directives of one configuration, until one is a second one of its
location or is refused; `cycle` are the ones before. -/
def parseDirectives : List Directive → List Directive → EngineGlobals Fn →
    ConfAnswer × List Directive × EngineGlobals Fn
  | [], cycle, e => (.ok, cycle, e)
  | d :: ds, cycle, e =>
      if cycle.any (·.location == d.location) then (.error, cycle, e)
      else
        match ngxHttpToxic declares variablesOrder d e with
        | (.ok, e) => parseDirectives ds (cycle ++ [d]) e
        | (answer, e) => (answer, cycle, e)

/-- A configuration is parsed; the old one stays when the parse fails. -/
def parseConf (m : Master Fn) (conf : List Directive) : Master Fn :=
  if m.crashed then m
  else
    match parseDirectives declares variablesOrder conf [] m.engine with
    | (.ok, cycle, e) => { m with engine := e, cycle := cycle }
    | (.error, _, e) => { m with engine := e }
    | (.crash, _, e) => { m with engine := e, crashed := true }

/-- The process before it parses its first configuration. -/
def Master.start : Master Fn := ⟨⟨0, 0, [], 0, 0, false, false, none⟩, [], false⟩

/-- Start-up and any number of reloads. -/
def parseAll (parses : List (List Directive)) : Master Fn :=
  parses.foldl (parseConf declares variablesOrder) Master.start

/-- The engine was initialized once, and a request runs the `Start` that the
directive of its location declares. -/
structure InitializedOnce (m : Master Fn) : Prop where
  embed : m.engine.embedInits = 1
  first : m.engine.firstInits = 1
  own : ∀ d ∈ m.cycle, m.engine.start = declares d.name

/-- The directives of a configuration up to a faulty one, behind those in
`cycle`. -/
def accepted : List Directive → List Directive → List Directive
  | [], _ => []
  | d :: ds, cycle =>
      if cycle.any (·.location == d.location) || d.name.isEmpty then []
      else d :: accepted ds (cycle ++ [d])

/-- The directives to be processed in a sequence of configurations. -/
def processed (parses : List (List Directive)) : List Directive :=
  parses.flatMap fun conf => accepted conf []

/-- What is left of the processing of a list of directives: each of them has
initialized the engine, and the first one that declares `Start` has set it. -/
structure EngineGlobals.Ran (e : EngineGlobals Fn) (ds : List Directive) : Prop where
  embed : e.embedInits = ds.length
  first : e.firstInits = ds.length
  initialized : e.moduleInitialized = !ds.isEmpty
  start : e.start = ds.findSome? fun d => declares d.name
  survives : treatsData variablesOrder = true → ds.length ≤ 1

/-- The second initialization has called a NULL pointer. -/
structure EngineGlobals.Died (e : EngineGlobals Fn) (ds : List Directive) : Prop where
  embed : e.embedInits = 2
  treats : treatsData variablesOrder = true
  more : 2 ≤ ds.length

variable {declares variablesOrder}

/-- More directives do not bring a process back. -/
theorem EngineGlobals.Died.append {e : EngineGlobals Fn} {ds : List Directive}
    (h : e.Died variablesOrder ds) (more : List Directive) :
    e.Died variablesOrder (ds ++ more) := by
  refine ⟨h.embed, h.treats, ?_⟩
  rw [List.length_append]
  exact Nat.le_add_right_of_le h.more

/-- A directive without a name leaves what was processed. -/
theorem EngineGlobals.Ran.refused {e : EngineGlobals Fn} {ds : List Directive}
    (h : e.Ran declares variablesOrder ds) {d : Directive} (hname : d.name = []) :
    (ngxHttpToxic declares variablesOrder d e).1 = .error ∧
      (ngxHttpToxic declares variablesOrder d e).2.Ran declares variablesOrder ds := by
  unfold ngxHttpToxic
  simp only [hname, if_true, true_and]
  exact ⟨h.embed, h.first, h.initialized, h.start, h.survives⟩

/-- **One directive.**  A name that is not empty initializes the engine and is
evaluated, whatever the guard was, or the process crashes on the way. -/
theorem EngineGlobals.Ran.directive {e : EngineGlobals Fn} {ds : List Directive}
    (h : e.Ran declares variablesOrder ds) {d : Directive} (hname : d.name ≠ []) :
    ((ngxHttpToxic declares variablesOrder d e).1 = .ok ∧
        (ngxHttpToxic declares variablesOrder d e).2.Ran declares variablesOrder (ds ++ [d])) ∨
      ((ngxHttpToxic declares variablesOrder d e).1 = .crash ∧
        (ngxHttpToxic declares variablesOrder d e).2.Died variablesOrder (ds ++ [d])) := by
  have hinit : e.moduleInitialized = !ds.isEmpty := h.initialized
  have hlength : (ds ++ [d]).length = ds.length + 1 := by simp
  by_cases hcrash : ds ≠ [] ∧ treatsData variablesOrder = true
  · obtain ⟨hne, htreats⟩ := hcrash
    have hone : ds.length = 1 := by
      have hpos := List.length_pos_iff.mpr hne
      have hle := h.survives htreats
      omega
    refine Or.inr ?_
    simp only [ngxHttpToxic, hname, if_false, if_true, phpEmbedInit, firstInit, htreats, hinit]
    have hempty : ds.isEmpty = false := by simpa using hne
    simp only [hempty]
    refine ⟨rfl, ?_, htreats, by omega⟩
    simp [h.embed, hone]
  · have hback : ((!e.moduleInitialized) || !treatsData variablesOrder) = true := by
      rw [hinit]
      by_cases hne : ds = []
      · simp [hne]
      · have htreats : treatsData variablesOrder = false := by
          rw [← Bool.not_eq_true]
          exact fun htreats => hcrash ⟨hne, htreats⟩
        simp [htreats]
    refine Or.inl ?_
    simp only [ngxHttpToxic, hname, if_false, if_true, phpEmbedInit, firstInit, hback]
    refine ⟨trivial, ?_, ?_, ?_, ?_, ?_⟩
    · simp [zendEvalString, h.embed]
    · simp [zendEvalString, h.first]
    · simp [zendEvalString]
    · simp only [zendEvalString, h.start]
      rw [List.findSome?_append, List.findSome?_singleton]
    · intro htreats
      have hnil : ds = [] := by
        by_contra hne
        exact hcrash ⟨hne, htreats⟩
      simp [hnil]

/-- **One configuration**: its accepted directives are processed, and a parse
that succeeds ends with them; or the process crashes. -/
theorem EngineGlobals.Ran.directives {e : EngineGlobals Fn} {ds : List Directive}
    (h : e.Ran declares variablesOrder ds) (conf cycle : List Directive) :
    (∃ e', parseDirectives declares variablesOrder conf cycle e
          = (.ok, cycle ++ accepted conf cycle, e') ∧
        e'.Ran declares variablesOrder (ds ++ accepted conf cycle)) ∨
      (∃ cycle' e', parseDirectives declares variablesOrder conf cycle e = (.error, cycle', e') ∧
        e'.Ran declares variablesOrder (ds ++ accepted conf cycle)) ∨
      ∃ cycle' e', parseDirectives declares variablesOrder conf cycle e = (.crash, cycle', e') ∧
        e'.Died variablesOrder (ds ++ accepted conf cycle) := by
  induction conf generalizing e ds cycle with
  | nil =>
      simp only [parseDirectives, accepted, List.append_nil]
      exact Or.inl ⟨e, rfl, h⟩
  | cons d conf ih =>
      unfold parseDirectives accepted
      by_cases hdup : cycle.any (·.location == d.location) = true
      · simp only [hdup, if_true, Bool.true_or, List.append_nil]
        exact Or.inr (Or.inl ⟨cycle, e, rfl, h⟩)
      · by_cases hname : d.name = []
        · obtain ⟨hrefused, hran⟩ := h.refused hname
          simp only [hdup, hname, List.isEmpty_nil, Bool.or_true, if_true, if_false,
            Bool.false_eq_true, List.append_nil]
          generalize ngxHttpToxic declares variablesOrder d e = result at hrefused hran ⊢
          obtain ⟨answer, e'⟩ := result
          obtain rfl : answer = .error := hrefused
          exact Or.inr (Or.inl ⟨cycle, e', rfl, hran⟩)
        · have hempty : d.name.isEmpty = false := by simpa using hname
          have hcons : ds ++ d :: accepted conf (cycle ++ [d])
              = (ds ++ [d]) ++ accepted conf (cycle ++ [d]) := by simp
          simp only [hdup, hempty, Bool.or_false, if_false, Bool.false_eq_true]
          have hdirective := h.directive hname
          generalize ngxHttpToxic declares variablesOrder d e = result at hdirective ⊢
          obtain ⟨answer, e'⟩ := result
          rcases hdirective with ⟨hok, hran⟩ | ⟨hcrash, hdied⟩
          · obtain rfl : answer = .ok := hok
            have htail := ih hran (cycle ++ [d])
            rw [List.append_assoc, List.singleton_append] at htail
            rw [hcons]
            exact htail
          · obtain rfl : answer = .crash := hcrash
            rw [hcons]
            exact Or.inr (Or.inr ⟨cycle, e', rfl, hdied.append _⟩)

/-- What a sequence of configurations leaves: the processed directives have
run, and the process runs on some of them; or it has crashed. -/
structure Parsed (declares : Bytes → Option Fn) (variablesOrder : Bytes) (m : Master Fn)
    (ds : List Directive) : Prop where
  ran : m.crashed = false → m.engine.Ran declares variablesOrder ds
  died : m.crashed = true → m.engine.Died variablesOrder ds
  cycle : ∀ d ∈ m.cycle, d ∈ ds

/-- **Another configuration.** -/
theorem Parsed.conf {m : Master Fn} {ds : List Directive} (h : Parsed declares variablesOrder m ds)
    (conf : List Directive) :
    Parsed declares variablesOrder (parseConf declares variablesOrder m conf)
      (ds ++ accepted conf []) := by
  have hold : ∀ d ∈ m.cycle, d ∈ ds ++ accepted conf [] :=
    fun d hd => List.mem_append_left _ (h.cycle d hd)
  unfold parseConf
  cases hcrashed : m.crashed with
  | true =>
      refine ⟨fun hlive => absurd (hcrashed.symm.trans hlive) (by decide), fun _ => ?_, hold⟩
      exact (h.died hcrashed).append _
  | false =>
      rcases (h.ran hcrashed).directives conf [] with ⟨e, hparse, hran⟩ | ⟨_, e, hparse, hran⟩ |
        ⟨_, e, hparse, hdied⟩ <;> simp only [hparse, Bool.false_eq_true, if_false]
      · refine ⟨fun _ => hran, fun hdead => Bool.noConfusion hdead, ?_⟩
        exact fun d hd => List.mem_append_right _ hd
      · exact ⟨fun _ => hran, fun hdead => Bool.noConfusion hdead, hold⟩
      · exact ⟨fun hlive => Bool.noConfusion hlive, fun _ => hdied, hold⟩

/-- Every sequence of configurations, by induction from its start. -/
theorem parsed_all (parses : List (List Directive)) :
    Parsed declares variablesOrder (parseAll declares variablesOrder parses) (processed parses) := by
  have hfold : ∀ (m : Master Fn) (ds : List Directive), Parsed declares variablesOrder m ds →
      Parsed declares variablesOrder (parses.foldl (parseConf declares variablesOrder) m)
        (ds ++ processed parses) := by
    induction parses with
    | nil =>
        intro m ds h
        simpa [processed] using h
    | cons conf parses ih =>
        intro m ds h
        have htail := ih _ _ (h.conf conf)
        simpa [processed] using htail
  have hstart : Parsed declares variablesOrder (Master.start : Master Fn) [] :=
    ⟨fun _ => ⟨rfl, rfl, rfl, rfl, fun _ => Nat.zero_le 1⟩,
      fun hdead => Bool.noConfusion hdead, fun d hd => nomatch hd⟩
  exact hfold Master.start [] hstart

/-- **What a second initialization comes to.**  The process has crashed exactly when
two directives were to be processed and `variables_order` has the query string or
the cookies in it, as it does without an ini file. -/
theorem crashed_iff (parses : List (List Directive)) :
    (parseAll declares variablesOrder parses : Master Fn).crashed = true ↔
      treatsData variablesOrder = true ∧ 2 ≤ (processed parses).length := by
  have h : Parsed declares variablesOrder _ _ := parsed_all parses
  constructor
  · intro hcrashed
    exact ⟨(h.died hcrashed).treats, (h.died hcrashed).more⟩
  · rintro ⟨htreats, hmore⟩
    by_contra hlive
    have hle := (h.ran (by simpa using hlive)).survives htreats
    omega

/-- **The first declaration wins**: which `Start` every location runs in a process
that goes on. -/
theorem start_eq_first (parses : List (List Directive))
    (hlive : (parseAll declares variablesOrder parses).crashed = false) :
    (parseAll declares variablesOrder parses).engine.start
      = (processed parses).findSome? fun d => declares d.name :=
  ((parsed_all parses).ran hlive).start

/-- **One initialization.**  After start-up and any number of reloads the engine
was initialized once, and every location of the configuration runs the `Start`
of its own directive, if and only if the configurations together have one
directive that is processed. -/
theorem initializedOnce_iff (declares : Bytes → Option Fn) (variablesOrder : Bytes)
    (parses : List (List Directive)) :
    InitializedOnce declares (parseAll declares variablesOrder parses) ↔
      (processed parses).length = 1 := by
  have h : Parsed declares variablesOrder (parseAll declares variablesOrder parses)
      (processed parses) := parsed_all parses
  cases hcrashed : (parseAll declares variablesOrder parses).crashed with
  | true =>
      obtain ⟨htwo, -, hmore⟩ := h.died hcrashed
      constructor
      · intro honce
        have hone := honce.embed
        omega
      · intro hone
        omega
  | false =>
      have hran := h.ran hcrashed
      constructor
      · intro honce
        rw [← hran.embed]
        exact honce.embed
      · intro hone
        refine ⟨hran.embed.trans hone, hran.first.trans hone, ?_⟩
        intro d hd
        obtain ⟨d', hd'⟩ := List.length_eq_one_iff.mp hone
        have hmem := h.cycle d hd
        rw [hd', List.mem_singleton] at hmem
        rw [hran.start, hd', List.findSome?_singleton, hmem]

/-- Two locations with a script each, without an ini file: the second directive
initializes the engine again, and the process crashes in it. -/
theorem second_location_crashes :
    (parseAll some defaultVariablesOrder [[⟨0, [65]⟩, ⟨1, [66]⟩]]).engine.embedInits = 2 ∧
      (parseAll some defaultVariablesOrder [[⟨0, [65]⟩, ⟨1, [66]⟩]]).crashed = true ∧
      ¬ InitializedOnce some (parseAll some defaultVariablesOrder [[⟨0, [65]⟩, ⟨1, [66]⟩]]) := by
  refine ⟨by decide, by decide, ?_⟩
  intro honce
  have hone := honce.embed
  revert hone
  decide

-- with an ini file that names the environment only, the second location runs the
-- `Start` of the first
example : (parseAll some [69] [[⟨0, [65]⟩, ⟨1, [66]⟩]]).engine.start = some [65] := by decide

end Toxic
