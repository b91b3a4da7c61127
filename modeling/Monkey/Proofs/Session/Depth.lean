import Monkey.Proofs.Session.Reach

/-!
# Depth is lexical

A function is as deep as its literal is nested: the environment in which it was made has one scope
more than there are function literals around its own. Its body is evaluated in a new environment one
deeper, wherever it is called from. So no environment is deeper than the programs are nested.
-/

namespace Monkey

/-! ### The depth of environments -/

/-- All scopes stay inside the same scopes. -/
def Store.Stays (store later : Store) : Prop :=
  Scope.Frame (fun _ => True) store.scopes later.scopes

theorem Store.stays_record (store : Store) (event : Event) : store.Stays (store.record event) :=
  .refl _

theorem Store.stays_issue (store : Store) :
    store.Stays { store with fresh := store.fresh + 1 } :=
  .refl _

theorem Store.stays_set (store : Store) (env : Env) (name : String) (value : Value) :
    store.Stays (store.set env name value).2 :=
  (store.frame_set env name value).mono fun _ _ => trivial

theorem Store.stays_setAll (store : Store) (env : Env) (bindings : List (String × Value)) :
    store.Stays (store.setAll env bindings) := by
  induction bindings generalizing store with
  | nil => exact .refl _
  | cons binding rest ih => exact (store.stays_set env binding.1 binding.2).trans (ih _)

theorem Store.stays_openScope (store : Store) (outer : List Env) :
    store.Stays (store.openScope outer).2 :=
  .of_same (by simp) fun _ existing => getElem?_openScope store outer existing

theorem Store.Stays.chain_eq {store later : Store} (stays : store.Stays later) {env : Env}
    (existing : env < store.scopes.size) : later.chain env = store.chain env := by
  rw [chain, chain, stays.outer env existing]

theorem Store.Stays.depth_eq {store later : Store} (stays : store.Stays later) {env : Env}
    (existing : env < store.scopes.size) : later.depth env = store.depth env := by
  rw [depth, depth, stays.chain_eq existing]

theorem Store.chain_openScope (store : Store) (outer : List Env) :
    (store.openScope outer).2.chain store.scopes.size = store.scopes.size :: outer := by
  simp [chain, openScope, Scope.opened]

theorem Store.depth_openScope (store : Store) (outer : List Env) :
    (store.openScope outer).2.depth store.scopes.size = outer.length + 1 := by
  rw [depth, chain_openScope, List.length_cons]

/-- The environment of a function body is one deeper than that of the function. -/
theorem Machine.depth_inside (machine : Machine) (env : Env) (params : List String)
    (args : List Value) :
    (machine.inside env params args).store.depth machine.store.scopes.size =
      machine.store.depth env + 1 := by
  have existing : machine.store.scopes.size < (machine.store.enclose env).2.scopes.size := by
    simp [Store.enclose]
  have bound := (machine.store.enclose env).2.stays_setAll machine.store.scopes.size (params.zip args)
  exact (bound.depth_eq existing).trans (machine.store.depth_openScope (machine.store.chain env))

theorem Machine.stays_inside (machine : Machine) (env : Env) (params : List String)
    (args : List Value) : machine.store.Stays (machine.inside env params args).store :=
  (machine.store.stays_openScope _).trans (Store.stays_setAll _ _ _)

/-- The greatest nesting of several programs. -/
def greatestNesting (programs : List Program) : Nat := (programs.map Program.nesting).foldr max 0

theorem greatestNesting_le_iff {programs : List Program} {bound : Nat} :
    greatestNesting programs ≤ bound ↔ ∀ program ∈ programs, Program.nesting program ≤ bound := by
  induction programs with
  | nil => simp [greatestNesting]
  | cons first rest ih =>
      change max (Program.nesting first) (greatestNesting rest) ≤ bound ↔ _
      rw [max_le_iff, ih, List.forall_mem_cons]

theorem nesting_le_greatestNesting {programs : List Program} :
    ∀ program ∈ programs, Program.nesting program ≤ greatestNesting programs :=
  greatestNesting_le_iff.mp (Nat.le_refl _)

/-! ### What is lexical -/

/-- One of the programs has the literal, and in an environment of this depth: there is one scope for
each function literal around it, and the global one. -/
def Literal.Placed (programs : List Program) (depth : Nat) : Literal → Prop
  | .str _ => True
  | .fn params body =>
    ∃ program ∈ programs, ∃ nesting, Program.HasFn program nesting params body ∧ depth = nesting + 1

/-- If the value is a function, one of the programs has its literal, and its environment is as deep as
that is nested. -/
def Value.Lexical (programs : List Program) (store : Store) : Value → Prop
  | .fn _ params body env =>
    env < store.scopes.size ∧ (Literal.fn params body).Placed programs (store.depth env)
  | .returned value => value.Lexical programs store
  | _ => True

/-- The values that an event logs are lexical. -/
def Event.Lexical (programs : List Program) (store : Store) : Event → Prop
  | .applied callee args =>
    callee.Lexical programs store ∧ ∀ arg ∈ args, arg.Lexical programs store
  | .bound _ _ value => value.Lexical programs store
  | _ => True

/-- The events end with the application of a function with so many parameters, of which the names are
bound. Its environment has one scope more than there are function literals around its own, and the
depth is one more still. -/
def EndsInCall (programs : List Program) (store : Store) (events : List Event) (count depth : Nat) :
    Prop :=
  ∃ front identity params body env args bindings,
    events = front ++ .applied (.fn identity params body env) args :: .entered :: bindings ∧
      (∀ event ∈ bindings, ∃ scope name value, event = .bound scope name value) ∧
      count = params.length ∧ env < store.scopes.size ∧
      ∃ program ∈ programs, ∃ nesting, Program.HasFn program nesting params body ∧
        store.depth env = nesting + 1 ∧ depth = nesting + 2

/-- All functions in the store and in its log are lexical, so are the calls in the log, and no
environment is deeper than the programs are nested. -/
structure Store.Lexical (programs : List Program) (store : Store) : Prop where
  bound : ∀ env name value, store.bound? env name = some value → value.Lexical programs store
  logged : ∀ event ∈ store.log.toList, event.Lexical programs store
  calling : ∀ before count depth, before ++ [.calling count depth] <+: store.log.toList →
    EndsInCall programs store before count depth
  depth : ∀ env < store.scopes.size, store.depth env ≤ 1 + greatestNesting programs

/-- The functions in a task are lexical, and its function literals are evaluated in an environment
that is as deep as they are nested. -/
structure Task.Lexical (programs : List Program) (machine : Machine) (task : Task) : Prop where
  values : ∀ value ∈ task.values, value.Lexical programs machine.store
  literals : ∀ literal ∈ task.literals,
    literal.Placed programs (machine.store.depth machine.env)

section

variable {programs others : List Program} {store later : Store}

theorem Literal.Placed.widen {literal : Literal} {depth : Nat} (wider : programs ⊆ others)
    (placed : literal.Placed programs depth) : literal.Placed others depth := by
  cases literal with
  | str text => trivial
  | fn params body =>
      rcases placed with ⟨program, member, found⟩
      exact ⟨program, wider member, found⟩

theorem Value.Lexical.widen {value : Value} (wider : programs ⊆ others)
    (lexical : value.Lexical programs store) : value.Lexical others store := by
  induction value with
  | fn identity params body env => exact ⟨lexical.1, lexical.2.widen wider⟩
  | returned _ ih => exact ih lexical
  | _ => trivial

theorem Value.Lexical.mono {value : Value} (stays : store.Stays later)
    (lexical : value.Lexical programs store) : value.Lexical programs later := by
  induction value with
  | fn identity params body env =>
      refine ⟨Nat.lt_of_lt_of_le lexical.1 stays.size, ?_⟩
      rw [stays.depth_eq lexical.1]
      exact lexical.2
  | returned _ ih => exact ih lexical
  | _ => trivial

theorem Value.Lexical.arrived {value : Value} (lexical : value.Lexical programs store) :
    value.arrived.Lexical programs store := by
  cases value <;> exact lexical

theorem Value.Atomic.lexical {value : Value} (atomic : value.Atomic) :
    value.Lexical programs store := by
  cases atomic <;> trivial

theorem Value.MadeOf.lexical {value : Value} {operands : List Value} {fresh : Nat}
    (made : value.MadeOf operands fresh) : value.Lexical programs store := by
  cases made with
  | atomic atomic => exact atomic.lexical
  | _ => trivial

theorem Event.Lexical.widen {event : Event} (wider : programs ⊆ others)
    (lexical : event.Lexical programs store) : event.Lexical others store := by
  cases event with
  | applied callee args =>
      exact ⟨lexical.1.widen wider, fun arg member => (lexical.2 arg member).widen wider⟩
  | bound env name value => exact Value.Lexical.widen wider lexical
  | _ => trivial

theorem Event.Lexical.mono {event : Event} (stays : store.Stays later)
    (lexical : event.Lexical programs store) : event.Lexical programs later := by
  cases event with
  | applied callee args =>
      exact ⟨lexical.1.mono stays, fun arg member => (lexical.2 arg member).mono stays⟩
  | bound env name value => exact Value.Lexical.mono stays lexical
  | _ => trivial

theorem EndsInCall.widen {events : List Event} {count depth : Nat} (wider : programs ⊆ others)
    (ends : EndsInCall programs store events count depth) :
    EndsInCall others store events count depth := by
  rcases ends with ⟨front, identity, params, body, env, args, bindings, split, allBound, count,
    existing, program, member, found⟩
  exact ⟨front, identity, params, body, env, args, bindings, split, allBound, count, existing,
    program, wider member, found⟩

theorem EndsInCall.mono {events : List Event} {count depth : Nat} (stays : store.Stays later)
    (ends : EndsInCall programs store events count depth) :
    EndsInCall programs later events count depth := by
  rcases ends with ⟨front, identity, params, body, env, args, bindings, split, allBound, count,
    existing, program, member, nesting, hasFn, depthOfEnv, depth⟩
  refine ⟨front, identity, params, body, env, args, bindings, split, allBound, count,
    Nat.lt_of_lt_of_le existing stays.size, program, member, nesting, hasFn, ?_, depth⟩
  rw [stays.depth_eq existing]
  exact depthOfEnv

namespace Store.Lexical

theorem widen (wider : programs ⊆ others) (lexical : store.Lexical programs) :
    store.Lexical others where
  bound env name value found := (lexical.bound env name value found).widen wider
  logged event member := (lexical.logged event member).widen wider
  calling before count depth called := (lexical.calling before count depth called).widen wider
  depth env existing := by
    have greater : greatestNesting programs ≤ greatestNesting others :=
      greatestNesting_le_iff.mpr fun program member => nesting_le_greatestNesting _ (wider member)
    have bounded := lexical.depth env existing
    omega

/-- As long as nothing is logged, only what is newly bound and what is newly opened matters. -/
theorem carry (lexical : store.Lexical programs) (stays : store.Stays later)
    (log : later.log = store.log)
    (bound : ∀ env name value, later.bound? env name = some value →
      store.bound? env name = some value ∨ value.Lexical programs store)
    (depth : ∀ env < later.scopes.size, later.depth env ≤ 1 + greatestNesting programs) :
    later.Lexical programs where
  bound env name value found := by
    rcases bound env name value found with older | valueLexical
    · exact (lexical.bound env name value older).mono stays
    · exact valueLexical.mono stays
  logged event member := by
    rw [log] at member
    exact (lexical.logged event member).mono stays
  calling before count depth found := by
    rw [log] at found
    exact (lexical.calling before count depth found).mono stays
  depth := depth

theorem issue (lexical : store.Lexical programs) :
    Store.Lexical programs { store with fresh := store.fresh + 1 } :=
  lexical.carry store.stays_issue rfl (fun _ _ _ => .inl) lexical.depth

theorem openScope (lexical : store.Lexical programs) {outer : List Env}
    (bounded : outer.length ≤ greatestNesting programs) :
    (store.openScope outer).2.Lexical programs := by
  refine lexical.carry (store.stays_openScope outer) rfl ?_ ?_
  · intro env name value found
    rw [bound?_openScope] at found
    exact .inl found
  · intro env existing
    rcases Nat.lt_or_ge env store.scopes.size with older | new
    · rw [(store.stays_openScope outer).depth_eq older]
      exact lexical.depth env older
    · rw [size_openScope] at existing
      have newest : env = store.scopes.size := by omega
      rw [newest, store.depth_openScope outer]
      omega

/-- A call is logged right behind the application that it belongs to. -/
theorem record (lexical : store.Lexical programs) {event : Event}
    (eventLexical : event.Lexical programs store)
    (called : ∀ count depth, event = .calling count depth →
      EndsInCall programs store store.log.toList count depth) :
    (store.record event).Lexical programs where
  bound env name value found := (lexical.bound env name value found).mono (store.stays_record _)
  logged other member := by
    rw [log_record, List.mem_append, List.mem_singleton] at member
    rcases member with member | rfl
    · exact (lexical.logged other member).mono (store.stays_record _)
    · exact eventLexical.mono (store.stays_record _)
  calling before count depth found := by
    rw [log_record, List.prefix_concat_iff] at found
    rcases found with whole | earlier
    · rcases List.append_inj' whole rfl with ⟨rfl, last⟩
      exact (called count depth (List.singleton_inj.mp last).symm).mono (store.stays_record _)
    · exact (lexical.calling before count depth earlier).mono (store.stays_record _)
  depth := lexical.depth

theorem set (lexical : store.Lexical programs) (env : Env) (name : String) {value : Value}
    (valueLexical : value.Lexical programs store) :
    (store.set env name value).2.Lexical programs := by
  have stays := store.stays_set env name value
  have rebound : Store.Lexical programs
      { store with scopes := store.scopes.modify env (·.set name value) } := by
    refine lexical.carry stays rfl ?_ ?_
    · intro other key held found
      have same := (store.bound?_set env other name key value).symm.trans found
      split at same
      · cases same
        exact .inr valueLexical
      · exact .inl same
    · intro other existing
      have older : other < store.scopes.size := by simpa using existing
      exact (stays.depth_eq older).trans_le (lexical.depth other older)
  exact rebound.record (valueLexical.mono stays) nofun

theorem setAll (lexical : store.Lexical programs) (env : Env) {bindings : List (String × Value)}
    (bindingsLexical : ∀ binding ∈ bindings, binding.2.Lexical programs store) :
    (store.setAll env bindings).Lexical programs := by
  induction bindings generalizing store with
  | nil => exact lexical
  | cons binding rest ih =>
      rcases List.forall_mem_cons.mp bindingsLexical with ⟨first, others⟩
      refine ih (lexical.set env binding.1 first) fun other member => ?_
      exact (others other member).mono (store.stays_set env binding.1 binding.2)

end Store.Lexical

/-! ### Machines -/

/-- The second machine has the same environment, all scopes are where they were, and everything is
lexical. -/
structure Machine.LexicalAfter (programs : List Program) (machine later : Machine) : Prop where
  env : later.env = machine.env
  stays : machine.store.Stays later.store
  lexical : later.store.Lexical programs

namespace Machine.LexicalAfter

variable {machine last : Machine}

theorem refl (lexical : machine.store.Lexical programs) : machine.LexicalAfter programs machine :=
  ⟨rfl, .refl _, lexical⟩

theorem trans {middle : Machine} (earlier : machine.LexicalAfter programs middle)
    (next : middle.LexicalAfter programs last) : machine.LexicalAfter programs last :=
  ⟨next.env.trans earlier.env, earlier.stays.trans next.stays, next.lexical⟩

theorem issue (after : machine.LexicalAfter programs last) :
    machine.LexicalAfter programs last.issue :=
  ⟨after.env, after.stays.trans last.store.stays_issue, after.lexical.issue⟩

theorem record (after : machine.LexicalAfter programs last) (event : Event)
    (eventLexical : event.Lexical programs last.store)
    (noCall : ∀ count depth, event ≠ .calling count depth) :
    machine.LexicalAfter programs (last.record event) :=
  ⟨after.env, after.stays.trans (last.store.stays_record event),
    after.lexical.record eventLexical fun count depth isCall => absurd isCall (noCall count depth)⟩

theorem applying (lexical : machine.store.Lexical programs) {callee : Value} {args : List Value}
    (calleeLexical : callee.Lexical programs machine.store)
    (argsLexical : ∀ arg ∈ args, arg.Lexical programs machine.store) :
    machine.LexicalAfter programs (machine.applying callee args) :=
  ((refl lexical).record (.applied callee args) ⟨calleeLexical, argsLexical⟩ nofun).record .entered
    trivial nofun

end Machine.LexicalAfter

/-- Where a function has been applied, its body is evaluated in an environment that is deep enough,
and the call is logged right behind the application. -/
theorem Machine.lexical_inside {machine : Machine} {front : List Event} {identity : Nat}
    {params : List String} {body : List Stmt} {env : Env} {args : List Value}
    (log : machine.store.log.toList =
      front ++ [.applied (.fn identity params body env) args, .entered])
    (lexical : machine.store.Lexical programs)
    (calleeLexical : (Value.fn identity params body env).Lexical programs machine.store)
    (argsLexical : ∀ arg ∈ args, arg.Lexical programs machine.store) :
    (machine.inside env params args).store.Lexical programs := by
  rcases calleeLexical with ⟨existing, program, member, nesting, hasFn, depth⟩
  have bounded : (machine.store.chain env).length ≤ greatestNesting programs := by
    have least := hasFn.lt_nesting
    have most := nesting_le_greatestNesting program member
    change machine.store.depth env ≤ _
    omega
  have bindingsLexical : ∀ binding ∈ params.zip args,
      binding.2.Lexical programs (machine.store.enclose env).2 := by
    intro binding inZip
    exact (argsLexical _ (List.of_mem_zip inZip).2).mono (machine.store.stays_openScope _)
  have bound := (lexical.openScope bounded).setAll machine.store.scopes.size bindingsLexical
  have stays := machine.stays_inside env params args
  refine bound.record trivial fun count deep isCall => ?_
  cases isCall
  refine ⟨front, identity, params, body, env, args,
    (params.zip args).map fun binding => .bound machine.store.scopes.size binding.1 binding.2,
    ?_, ?_, rfl, Nat.lt_of_lt_of_le existing stays.size, program, member, nesting, hasFn, ?_, ?_⟩
  · simp [log]
  · intro event inBindings
    rcases List.mem_map.mp inBindings with ⟨binding, -, rfl⟩
    exact ⟨_, _, _, rfl⟩
  · exact (stays.depth_eq existing).trans depth
  · have deeper := machine.depth_inside env params args
    rw [depth] at deeper
    exact deeper

end

/-- Evaluations keep depth lexical. -/
def Policy.lexical (programs : List Program) : Policy where
  pre machine := machine.env < machine.store.scopes.size ∧ machine.store.Lexical programs
  allows machine literal := literal.Placed programs (machine.store.depth machine.env)
  fits machine value := value.Lexical programs machine.store
  post machine value later :=
    machine.LexicalAfter programs later ∧ value.Lexical programs later.store
  applied machine value later :=
    machine.LexicalAfter programs later ∧ value.Lexical programs later.store
  settled pre post := ⟨post.1.env ▸ Nat.lt_of_lt_of_le pre.1 post.1.stays.size, post.1.lexical⟩
  ready _ post _ := post.2
  keeps _ post fits := fits.mono post.1.stays
  carries pre post allowed := by rwa [post.1.env, post.1.stays.depth_eq pre.1]
  trans earlier _ next := ⟨earlier.1.trans next.1, next.2⟩
  arrived post := ⟨post.1, post.2.arrived⟩
  post_of_applied applied := applied
  atomic _ atomic := atomic.lexical
  value pre fits := ⟨.refl pre.2, fits⟩
  returned pre fits := ⟨.refl pre.2, fits⟩
  str pre _ := ⟨(Machine.LexicalAfter.refl pre.2).issue, trivial⟩
  close pre allowed := ⟨(Machine.LexicalAfter.refl pre.2).issue, pre.1, allowed⟩
  made pre _ made := ⟨(Machine.LexicalAfter.refl pre.2).issue, made.lexical⟩
  failed fault pre :=
    ⟨(Machine.LexicalAfter.refl pre.2).record (.failed fault) trivial nofun, trivial⟩
  lookup pre found := ⟨.refl pre.2, Store.Binds.get? pre.2.bound found⟩
  bind {machine value} name pre fits :=
    ⟨⟨rfl, machine.store.stays_set machine.env name value, pre.2.set machine.env name fits⟩, trivial⟩
  answer pre calleeFits argsFit made :=
    ⟨(Machine.LexicalAfter.applying pre.2 calleeFits argsFit).issue.record .exited trivial nofun,
      made.lexical⟩
  refuse fault pre calleeFits argsFit := by
    have applied := Machine.LexicalAfter.applying pre.2 calleeFits argsFit
    exact ⟨(applied.record (.failed fault) trivial nofun).record .exited trivial nofun, trivial⟩
  enter {machine identity params body env args} pre calleeFits argsFit _ := by
    have applied := Machine.LexicalAfter.applying pre.2 calleeFits argsFit
    have calleeLexical := calleeFits.mono applied.stays
    refine ⟨⟨by simp, ?_⟩, ?_⟩
    · refine Machine.lexical_inside (machine.log_applying _ args) applied.lexical calleeLexical ?_
      exact fun arg member => (argsFit arg member).mono applied.stays
    · intro literal member
      cases literal with
      | str text => trivial
      | fn innerParams innerBody =>
          rcases calleeLexical.2 with ⟨program, inPrograms, nesting, hasFn, depth⟩
          refine ⟨program, inPrograms, nesting + 1, hasFn.inside member, ?_⟩
          rw [Machine.env_inside, Machine.depth_inside, depth]
  leave {machine later identity params body env args value} pre calleeFits argsFit _ post := by
    have applied := Machine.LexicalAfter.applying pre.2 calleeFits argsFit
    have entered :=
      (machine.applying (.fn identity params body env) args).stays_inside env params args
    have stays := (applied.stays.trans entered).trans post.1.stays
    have after : machine.LexicalAfter programs { later with env := machine.env } :=
      ⟨rfl, stays, post.1.lexical⟩
    exact ⟨after.record .exited trivial nofun, post.2.arrived.mono (later.store.stays_record _)⟩

/-! ### Sessions -/

theorem Store.lexical_start : Session.start.store.Lexical [] where
  bound := binds_start _
  logged := List.forall_mem_nil _
  calling before count depth found := by
    have empty := List.prefix_nil.mp found
    simp at empty
  depth env existing := by
    change env < 1 at existing
    have first : env = 0 := by omega
    subst first
    decide

/-- The function literals of a program that stand in no other are evaluated in the global scope. -/
theorem Program.allows_literals {programs : List Program} {program : Program}
    (member : program ∈ programs) {machine : Machine}
    (global : machine.store.depth machine.env = 1) :
    (Policy.lexical programs).Allows machine (Program.literals program) := by
  intro literal inProgram
  cases literal with
  | str text => trivial
  | fn params body => exact ⟨program, member, 0, .outermost inProgram, global⟩

/-- After any number of programs, depth is lexical, and the environment of the session is global. -/
theorem Session.ReachedBy.lexical {programs : List Program} {session : Session}
    (reached : session.ReachedBy programs) :
    (Policy.lexical programs).pre ⟨session.env, session.store⟩ ∧
      session.store.depth session.env = 1 := by
  induction reached with
  | start => exact ⟨⟨by decide, Store.lexical_start⟩, by decide⟩
  | @evaluated programs session fuel program value later reached ends ih =>
      rcases ih with ⟨⟨existing, lexical⟩, global⟩
      rcases Option.map_eq_some_iff.mp ends with ⟨⟨result, last⟩, ran, answered⟩
      cases answered
      have pre : (Policy.lexical (programs ++ [program])).pre ⟨session.env, session.store⟩ :=
        ⟨existing, lexical.widen (List.subset_append_left _ _)⟩
      have allowed := @Program.allows_literals (programs ++ [program]) program (by simp)
        ⟨session.env, session.store⟩ global
      have post := (Policy.meets_program fuel program pre allowed ran).1
      refine ⟨⟨Nat.lt_of_lt_of_le existing post.stays.size, post.lexical⟩, ?_⟩
      exact (post.stays.depth_eq existing).trans global

theorem Evaluation.ReachedBy.admits {programs : List Program} {evaluation : Evaluation}
    (reached : evaluation.ReachedBy programs) : (Policy.lexical programs).Admits evaluation := by
  induction reached with
  | @program programs session reached fuel program =>
      rcases reached.lexical with ⟨⟨existing, lexical⟩, global⟩
      refine ⟨⟨existing, lexical.widen (List.subset_append_left _ _)⟩, nofun, ?_⟩
      exact Program.allows_literals (by simp) global
  | started _ starts ih => exact ih.starts starts

/-- In all evaluations of a session, functions come from function literals of its programs, and their
environments have one scope more than there are function literals around those. So are their bodies
one deeper still, and nothing is deeper than the programs are nested. -/
theorem Evaluation.ReachedBy.depth_of_nesting {programs : List Program} {evaluation : Evaluation}
    (reached : evaluation.ReachedBy programs) :
    evaluation.machine.store.Lexical programs ∧
      evaluation.task.Lexical programs evaluation.machine ∧
      ∀ value later, evaluation.result? = some (value, later) →
        later.store.Lexical programs ∧ value.Lexical programs later.store := by
  have admits := reached.admits
  refine ⟨admits.pre.2, ⟨admits.fits, admits.allows⟩, ?_⟩
  intro value later ends
  have post := admits.post ends
  exact ⟨post.1.lexical, post.2⟩

/-- The result of `fn() { fn() { } }()` comes from a function literal inside of another one. -/
theorem depth_of_nested_function :
    ∃ later,
      (Task.program [.expr (.call (.fn [] [.expr (.fn [] [])]) [])]).run 1
          ⟨Session.start.env, Session.start.store⟩ = some (.fn 1 [] [] 1, later) ∧
        later.store.Lexical [[.expr (.call (.fn [] [.expr (.fn [] [])]) [])]] ∧
        (Value.fn 1 [] [] 1).Lexical [[.expr (.call (.fn [] [.expr (.fn [] [])]) [])]]
          later.store ∧
        later.store.depth 1 = 2 := by
  have reached := Evaluation.ReachedBy.program .start 1
    [.expr (.call (.fn [] [.expr (.fn [] [])]) [])]
  have lexical := reached.depth_of_nesting.2.2 (.fn 1 [] [] 1) _ rfl
  exact ⟨_, rfl, lexical.1, lexical.2, rfl⟩

end Monkey
