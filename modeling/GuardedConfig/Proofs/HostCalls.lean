import GuardedConfig.Proofs.Interpreter

/-!
# `Proofs.HostCalls` — a failing call ends its trigger

A trigger asks its host for fields and sets them, and any of these calls may fail. A write that is undone as a whole
relies on the failure of a part of it being seen: no expression and no statement may go on after a failure, replace it
or lose it. The calls of a run are noted by a host that does what another one does and keeps a list of what it was
asked. Faults of the trigger itself are found where they occur: a run comes to the expressions of its program one after
another, each in some state of the host, and to evaluate an expression in that state may be impossible.

## Contents

* `HostCall`, `Host.noting`, `run_noting` — the calls of a run
* `EndsAtFailure`, `executeAll_endsAtFailure` — after a call that fails there is no other
* `Expr.operands`, `Expr.Visits`, `Visits` — the expressions that a run comes to
* `eval_of_visits`, `executeAll_of_visits` — a fault of one of them is the fault of the run
* `failing_call_is_last`
-/

namespace GuardedConfig.Trigger

variable {σ α β : Type}

/-! ## Calls -/

/-- A call of a host, with its answer. -/
inductive HostCall where
  | get (path : String) (answer : Except Error Json)
  | set (path : String) (value : Json) (answer : Except Error Unit)

/-- The error that a call has returned. -/
def HostCall.error? : HostCall → Option Error
  | get _ (.error e) => some e
  | set _ _ (.error e) => some e
  | _ => none

/-- A host that does the same and notes its calls, in order. -/
def Host.noting (host : Host σ) : Host (σ × List HostCall) where
  get path := fun (s, calls) =>
    let (answer, s') := host.get path s
    (answer, s', calls ++ [.get path answer])
  set path value := fun (s, calls) =>
    let (answer, s') := host.set path value s
    (answer, s', calls ++ [.set path value answer])
  warn trigger text := fun (s, calls) => (host.warn trigger text s, calls)

/-- Noting the calls changes nothing else. -/
theorem noting_relates (host : Host σ) :
    host.Relates (fun s t => s = t.1) (fun e e' s t => e = e' ∧ s = t.1) host.noting where
  fails _ _ _ _ h := ⟨rfl, h⟩
  renames _ _ _ _ _ h := ⟨by rw [h.1], h.2⟩
  get path := by
    rintro s ⟨_, calls⟩ rfl
    exact Mimics.end_iff.2 ⟨rfl, rfl⟩
  set path value := by
    rintro s ⟨_, calls⟩ rfl
    exact Mimics.end_iff.2 ⟨rfl, rfl⟩
  warn _ _ _ _ h := by rw [h]; rfl

/-- A run on the host that notes its calls ends like the run on the host itself. -/
theorem run_noting (t : Trigger) (host : Host σ) (s : σ) (calls : List HostCall) :
    (t.run host s).1 = (t.run host.noting (s, calls)).1 ∧ (t.run host s).2 = (t.run host.noting (s, calls)).2.1 :=
  Mimics.end_iff.1 (run_relates (noting_relates host) t s (s, calls) rfl)

/-- Every error but an unknown field is passed on as it is. -/
theorem lookupError_of_ne {trigger : String} {e : Error} (h : ∀ path, e ≠ .unknownField path) :
    lookupError trigger e = e := by
  cases e with
  | unknownField path => exact absurd rfl (h path)
  | _ => rfl

/-! ## After a failing call -/

/-- How a step of a trigger ends that has made some calls. If it succeeds, so did all calls. If it fails, either the
last call has failed, and this is its error as the trigger sees it, or all calls have succeeded and it is a fault of the
trigger. -/
def Conveys (trigger : String) (calls : List HostCall) : Except Error α → Prop
  | .ok _ => ∀ call ∈ calls, call.error? = none
  | .error e =>
    (∃ front last cause, calls = front ++ [last] ∧ (∀ call ∈ front, call.error? = none) ∧
      last.error? = some cause ∧ e = lookupError trigger cause) ∨
    (∀ call ∈ calls, call.error? = none) ∧ ∃ reason, e = .trigger trigger reason

/-- Calls that have all succeeded may stand before those of a step. -/
theorem Conveys.behind {trigger : String} {front calls : List HostCall} {r : Except Error α}
    (hfront : ∀ call ∈ front, call.error? = none) (h : Conveys trigger calls r) :
    Conveys trigger (front ++ calls) r := by
  cases r with
  | ok a => exact List.forall_mem_append.2 ⟨hfront, h⟩
  | error e =>
    rcases h with ⟨before, last, cause, rfl, hbefore, hlast, he⟩ | ⟨hcalls, hreason⟩
    · exact .inl ⟨front ++ before, last, cause, (List.append_assoc ..).symm,
        List.forall_mem_append.2 ⟨hfront, hbefore⟩, hlast, he⟩
    · exact .inr ⟨List.forall_mem_append.2 ⟨hfront, hcalls⟩, hreason⟩

/-- A call that has failed is the last one, and its error is the one that the step ends with. -/
theorem Conveys.of_error? {trigger : String} {front back : List HostCall} {call : HostCall} {r : Except Error α}
    {e : Error} (h : Conveys trigger (front ++ call :: back) r) (hcall : call.error? = some e) :
    back = [] ∧ r = .error (lookupError trigger e) := by
  have hfails : call.error? ≠ none := by simp [hcall]
  have hmem : call ∈ front ++ call :: back := List.mem_append_right _ (List.mem_cons_self ..)
  cases r with
  | ok a => exact absurd (h call hmem) hfails
  | error fault =>
    rcases h with ⟨before, last, cause, heq, hbefore, hlast, rfl⟩ | ⟨hcalls, -⟩
    · rcases List.eq_nil_or_concat back with rfl | ⟨init, final, rfl⟩
      · obtain ⟨-, hcall'⟩ := List.append_inj' heq rfl
        obtain rfl : call = last := by simpa using hcall'
        obtain rfl : e = cause := Option.some.inj (hcall.symm.trans hlast)
        exact ⟨rfl, rfl⟩
      · have heq' : (front ++ call :: init) ++ [final] = before ++ [last] := by rw [← heq]; simp
        obtain ⟨rfl, -⟩ := List.append_inj' heq' rfl
        exact absurd (hbefore call (List.mem_append_right _ (List.mem_cons_self ..))) hfails
    · exact absurd (hcalls call hmem) hfails

/-- A step of a trigger that makes no call after one that fails, and then ends with its error. -/
def EndsAtFailure (trigger : String) (x : Task (σ × List HostCall) α) : Prop :=
  ∀ s calls, ∃ more, (outcome x (s, calls)).2.2 = calls ++ more ∧ Conveys trigger more (outcome x (s, calls)).1

namespace EndsAtFailure

variable {trigger : String}

theorem pure (a : α) : EndsAtFailure trigger (pure a : Task (σ × List HostCall) α) :=
  fun _ calls => ⟨[], (List.append_nil calls).symm, List.forall_mem_nil _⟩

theorem refuse (reason : String) : EndsAtFailure trigger (refuse trigger reason : Task (σ × List HostCall) α) :=
  fun _ calls => ⟨[], (List.append_nil calls).symm, .inr ⟨List.forall_mem_nil _, reason, rfl⟩⟩

theorem ofResult (r : Except String Json) :
    EndsAtFailure trigger (ofResult trigger r : Task (σ × List HostCall) Json) := by
  cases r with
  | ok v => exact pure v
  | error reason => exact refuse reason

theorem bind {x : Task (σ × List HostCall) α} {f : α → Task (σ × List HostCall) β} (hx : EndsAtFailure trigger x)
    (hf : ∀ a, EndsAtFailure trigger (f a)) : EndsAtFailure trigger (x >>= f) := by
  intro s calls
  obtain ⟨more, hlog, hends⟩ := hx s calls
  rw [outcome_bind]
  rcases hout : outcome x (s, calls) with ⟨e | a, s₁, calls₁⟩ <;> rw [hout] at hlog hends
  · exact ⟨more, hlog, hends⟩
  · obtain rfl : calls₁ = calls ++ more := hlog
    obtain ⟨later, hlater, hends'⟩ := hf a s₁ (calls ++ more)
    exact ⟨more ++ later, by rw [hlater, List.append_assoc], hends'.behind hends⟩

/-- A call that is noted conveys its own error. -/
theorem onHost {step : σ × List HostCall → Except Error α × σ × List HostCall} {call : Except Error α → HostCall}
    (hstep : ∀ s calls, (step (s, calls)).2.2 = calls ++ [call (step (s, calls)).1])
    (hok : ∀ a, (call (.ok a)).error? = none) (herror : ∀ e, (call (.error e)).error? = some e) :
    EndsAtFailure trigger (onHost trigger step) := by
  intro s calls
  have hnoted := hstep s calls
  change ∃ more, (Trigger.onHost trigger step (s, calls)).2.2 = calls ++ more ∧
    Conveys trigger more (Trigger.onHost trigger step (s, calls)).1
  unfold Trigger.onHost ExceptT.mk
  dsimp only
  rcases hout : step (s, calls) with ⟨e | a, s₁, calls₁⟩ <;> rw [hout] at hnoted
  · exact ⟨[call (.error e)], hnoted, .inl ⟨[], _, e, rfl, List.forall_mem_nil _, herror e, rfl⟩⟩
  · refine ⟨[call (.ok a)], hnoted, fun c hc => ?_⟩
    rw [List.mem_singleton.1 hc]
    exact hok a

end EndsAtFailure

section Programs

variable (host : Host σ) (trigger : String)

theorem pathOf_endsAtFailure (v : Json) :
    EndsAtFailure trigger (pathOf trigger v : Task (σ × List HostCall) String) := by
  cases v with
  | str path => exact .pure path
  | _ => exact .refuse _

theorem call_endsAtFailure (c : Capability) (arguments : List Json) :
    EndsAtFailure trigger (call host.noting trigger c arguments) := by
  cases c with
  | get =>
    exact (pathOf_endsAtFailure trigger _).bind fun path =>
      @EndsAtFailure.onHost _ _ _ _ (.get path) (fun _ _ => rfl) (fun _ => rfl) fun _ => rfl
  | set =>
    refine (pathOf_endsAtFailure trigger _).bind fun path => EndsAtFailure.bind ?_ fun _ => .pure _
    exact @EndsAtFailure.onHost _ _ _ _ (.set path _) (fun _ _ => rfl) (fun _ => rfl) fun _ => rfl
  | err => exact .refuse _
  | warn => exact fun s calls => ⟨[], (List.append_nil calls).symm, List.forall_mem_nil _⟩
  | assertRegex => exact .ofResult _
  | assertEqual => exact .pure _
  | assertUnique => exact .ofResult _

mutual

theorem eval_endsAtFailure (vars : Variables) : ∀ e : Expr, EndsAtFailure trigger (eval host.noting trigger vars e)
  | .literal v => by
    rw [eval]
    exact .pure v
  | .var name => by
    rw [eval]
    cases vars.lookup name with
    | some v => exact .pure v
    | none => exact .refuse _
  | .not e => by
    rw [eval]
    exact (eval_endsAtFailure vars e).bind fun _ => .pure _
  | .compare left op right => by
    rw [eval]
    refine (eval_endsAtFailure vars left).bind fun a => (eval_endsAtFailure vars right).bind fun b => ?_
    cases holds op a b with
    | some b => exact .pure _
    | none => exact .refuse _
  | .index target index => by
    rw [eval]
    refine (eval_endsAtFailure vars target).bind fun t => (eval_endsAtFailure vars index).bind fun i => ?_
    cases elementAt? t i with
    | some v => exact .pure v
    | none => exact .refuse _
  | .member target name => by
    rw [eval]
    refine (eval_endsAtFailure vars target).bind fun t => ?_
    cases t.member? name with
    | some v => exact .pure v
    | none => exact .refuse _
  | .call c arguments => by
    rw [eval]
    exact (evalAll_endsAtFailure vars arguments).bind fun values => call_endsAtFailure host trigger c values

theorem evalAll_endsAtFailure (vars : Variables) :
    ∀ es : List Expr, EndsAtFailure trigger (evalAll host.noting trigger vars es)
  | [] => by
    rw [evalAll]
    exact .pure []
  | e :: es => by
    rw [evalAll]
    exact (eval_endsAtFailure vars e).bind fun v => (evalAll_endsAtFailure vars es).bind fun vs => .pure _

end

mutual

theorem execute_endsAtFailure :
    ∀ (s : Stmt) (vars : Variables), EndsAtFailure trigger (execute host.noting trigger vars s)
  | .bind name e, vars => by
    rw [execute]
    exact (eval_endsAtFailure host trigger vars e).bind fun v => .pure _
  | .branch condition yes no, vars => by
    rw [execute]
    refine (eval_endsAtFailure host trigger vars condition).bind fun v => ?_
    cases truthy v with
    | true => exact executeAll_endsAtFailure yes vars
    | false => exact executeAll_endsAtFailure no vars
  | .done none, vars => by
    rw [execute]
    exact .pure _
  | .done (some e), vars => by
    rw [execute]
    exact (eval_endsAtFailure host trigger vars e).bind fun v => .pure _
  | .eval e, vars => by
    rw [execute]
    exact (eval_endsAtFailure host trigger vars e).bind fun _ => .pure _

theorem executeAll_endsAtFailure :
    ∀ (ss : List Stmt) (vars : Variables), EndsAtFailure trigger (executeAll host.noting trigger vars ss)
  | [], vars => by
    rw [executeAll]
    exact .pure _
  | s :: ss, vars => by
    rw [executeAll]
    refine (execute_endsAtFailure s vars).bind fun flow => ?_
    cases flow with
    | next vars => exact executeAll_endsAtFailure ss vars
    | done v => exact .pure _

end

end Programs

/-- The whole run, its verdict included. -/
theorem run_endsAtFailure (t : Trigger) (host : Host σ) : EndsAtFailure t.name (Task.of (t.run host.noting)) := by
  rw [of_run]
  refine (executeAll_endsAtFailure host t.name t.program []).bind fun flow => ?_
  have hverdict : Conveys t.name [] (verdict t.name flow) := by
    unfold verdict
    split
    · exact .inr ⟨List.forall_mem_nil _, _, rfl⟩
    · exact .inr ⟨List.forall_mem_nil _, _, rfl⟩
    · exact List.forall_mem_nil _
  exact fun s calls => ⟨[], (List.append_nil calls).symm, hverdict⟩

/-! ## Expressions that a run comes to -/

/-- The expressions whose values an expression needs, in the order in which they are evaluated. -/
def Expr.operands : Expr → List Expr
  | .literal _ | .var _ => []
  | .not e => [e]
  | .compare left _ right => [left, right]
  | .index target position => [target, position]
  | .member target _ => [target]
  | .call _ arguments => arguments

/-- The expression that a statement evaluates first, if any. -/
def Stmt.expr? : Stmt → Option Expr
  | .bind _ e => some e
  | .branch condition _ _ => some condition
  | .done e => e
  | .eval e => some e

/-- To evaluate an expression in a state of the host is to come to another one, in another state: an operand is
evaluated once those before it have values. -/
inductive Expr.Visits (host : Host σ) (trigger : String) (vars : Variables) : Expr → σ → Expr → σ → Prop
  | self (e : Expr) (s : σ) : Visits host trigger vars e s e s
  | operand {e operand inner : Expr} {before after : List Expr} {values : List Json} {s s₁ s₂ : σ} :
      e.operands = before ++ operand :: after → outcome (evalAll host trigger vars before) s = (.ok values, s₁) →
      Visits host trigger vars operand s₁ inner s₂ → Visits host trigger vars e s inner s₂

/-- To execute statements with some variables is to come to an expression, with the variables that it can use. -/
inductive Visits (host : Host σ) (trigger : String) : Variables → List Stmt → σ → Variables → Expr → σ → Prop
  | expression {vars : Variables} {stmt : Stmt} {stmts : List Stmt} {e inner : Expr} {s s₁ : σ} :
      stmt.expr? = some e → e.Visits host trigger vars s inner s₁ →
      Visits host trigger vars (stmt :: stmts) s vars inner s₁
  | block {vars vars₁ : Variables} {condition inner : Expr} {yes no stmts : List Stmt} {v : Json} {s s₁ s₂ : σ} :
      outcome (eval host trigger vars condition) s = (.ok v, s₁) →
      Visits host trigger vars (if truthy v then yes else no) s₁ vars₁ inner s₂ →
      Visits host trigger vars (.branch condition yes no :: stmts) s vars₁ inner s₂
  | next {vars vars₁ vars₂ : Variables} {stmt : Stmt} {stmts : List Stmt} {inner : Expr} {s s₁ s₂ : σ} :
      outcome (execute host trigger vars stmt) s = (.ok (.next vars₁), s₁) →
      Visits host trigger vars₁ stmts s₁ vars₂ inner s₂ → Visits host trigger vars (stmt :: stmts) s vars₂ inner s₂

variable {host : Host σ} {trigger : String} {vars vars₁ : Variables} {e inner : Expr} {fault : Error} {s s₁ s₂ : σ}

theorem evalAll_cons_eq_error {es : List Expr} :
    outcome (evalAll host trigger vars (e :: es)) s = (.error fault, s₂) ↔
      outcome (eval host trigger vars e) s = (.error fault, s₂) ∨
        ∃ v s₁, outcome (eval host trigger vars e) s = (.ok v, s₁) ∧
          outcome (evalAll host trigger vars es) s₁ = (.error fault, s₂) := by
  rw [evalAll, outcome_bind_eq_error]
  refine or_congr_right (exists₂_congr fun v s₁ => and_congr_right fun _ => ?_)
  rw [outcome_bind_eq_error]
  refine or_iff_left ?_
  rintro ⟨vs, s₃, -, h⟩
  cases h

/-- A fault of one of several expressions is their fault, once those before it have values. -/
theorem evalAll_of_operand {before after : List Expr} {values : List Json}
    (hbefore : outcome (evalAll host trigger vars before) s = (.ok values, s₁))
    (h : outcome (eval host trigger vars e) s₁ = (.error fault, s₂)) :
    outcome (evalAll host trigger vars (before ++ e :: after)) s = (.error fault, s₂) := by
  induction before generalizing s values with
  | nil =>
    rw [evalAll] at hbefore
    cases hbefore
    exact evalAll_cons_eq_error.2 (.inl h)
  | cons first before ih =>
    rw [evalAll] at hbefore
    obtain ⟨v, s₃, hfirst, hrest⟩ := outcome_bind_eq_ok.1 hbefore
    obtain ⟨vs, s₄, hvs, hlast⟩ := outcome_bind_eq_ok.1 hrest
    cases hlast
    exact evalAll_cons_eq_error.2 (.inr ⟨v, s₃, hfirst, ih hvs⟩)

/-- A fault of the operands of an expression is the fault of the expression. -/
theorem eval_of_operands (h : outcome (evalAll host trigger vars e.operands) s = (.error fault, s₂)) :
    outcome (eval host trigger vars e) s = (.error fault, s₂) := by
  have hnil : ∀ s, outcome (evalAll host trigger vars []) s ≠ (.error fault, s₂) := by
    intro s h
    rw [evalAll] at h
    cases h
  cases e <;> dsimp only [Expr.operands] at h
  case literal => exact absurd h (hnil s)
  case var => exact absurd h (hnil s)
  case not | member =>
    rw [eval, outcome_bind_eq_error]
    rcases evalAll_cons_eq_error.1 h with h | ⟨v, s₁, -, h⟩
    · exact .inl h
    · exact absurd h (hnil s₁)
  case compare | index =>
    rw [eval, outcome_bind_eq_error]
    rcases evalAll_cons_eq_error.1 h with h | ⟨v, s₁, hfirst, h⟩
    · exact .inl h
    · refine .inr ⟨v, s₁, hfirst, outcome_bind_eq_error.2 ?_⟩
      rcases evalAll_cons_eq_error.1 h with h | ⟨w, s₃, -, h⟩
      · exact .inl h
      · exact absurd h (hnil s₃)
  case call =>
    rw [eval, outcome_bind_eq_error]
    exact .inl h

/-- **Expressions**: a fault of an expression that is visited is the fault of the whole, and nothing happens after
it. -/
theorem eval_of_visits (h : e.Visits host trigger vars s inner s₁)
    (hfault : outcome (eval host trigger vars inner) s₁ = (.error fault, s₂)) :
    outcome (eval host trigger vars e) s = (.error fault, s₂) := by
  induction h with
  | self => exact hfault
  | operand hoperands hbefore _ ih => exact eval_of_operands (hoperands ▸ evalAll_of_operand hbefore (ih hfault))

/-- A statement fails with the expression that it evaluates first. -/
theorem execute_of_expr {stmt : Stmt} (hexpr : stmt.expr? = some e)
    (h : outcome (eval host trigger vars e) s = (.error fault, s₂)) :
    outcome (execute host trigger vars stmt) s = (.error fault, s₂) := by
  cases stmt with
  | done value =>
    obtain rfl : value = some e := hexpr
    rw [execute, outcome_bind_eq_error]
    exact .inl h
  | _ =>
    cases hexpr
    rw [execute, outcome_bind_eq_error]
    exact .inl h

theorem executeAll_of_execute {stmt : Stmt} {stmts : List Stmt}
    (h : outcome (execute host trigger vars stmt) s = (.error fault, s₂)) :
    outcome (executeAll host trigger vars (stmt :: stmts)) s = (.error fault, s₂) := by
  rw [executeAll, outcome_bind_eq_error]
  exact .inl h

/-- **Statements**: a fault of an expression that is visited is the fault of the whole, and nothing happens after it.
The induction is on the way to the expression, through blocks and behind other statements. -/
theorem executeAll_of_visits {stmts : List Stmt} (h : Visits host trigger vars stmts s vars₁ inner s₁)
    (hfault : outcome (eval host trigger vars₁ inner) s₁ = (.error fault, s₂)) :
    outcome (executeAll host trigger vars stmts) s = (.error fault, s₂) := by
  induction h with
  | expression hexpr hvisits => exact executeAll_of_execute (execute_of_expr hexpr (eval_of_visits hvisits hfault))
  | @block _ _ _ _ _ _ _ v _ _ _ hcondition _ ih =>
    refine executeAll_of_execute ?_
    rw [execute, outcome_bind_ok hcondition]
    have ih := ih hfault
    cases hv : truthy v <;> rw [hv] at ih <;> exact ih
  | next hstmt _ ih =>
    rw [executeAll, outcome_bind_ok hstmt]
    exact ih hfault

/-- `CANFIG_ERR` never has a value. -/
theorem eval_err_ne_ok {arguments : List Expr} {v : Json} :
    outcome (eval host trigger vars (.call .err arguments)) s ≠ (.ok v, s₂) := by
  intro h
  rw [eval] at h
  obtain ⟨values, s₁, -, h⟩ := outcome_bind_eq_ok.1 h
  cases h

/-! ## Whole runs -/

theorem run_eq (t : Trigger) : t.run host s = outcome (executeAll host t.name [] t.program >>= fun flow =>
    Task.ofExcept (verdict t.name flow)) s := by
  rw [← of_run]
  rfl

/-- A run succeeds if its program ends, and not with `false` or a string. -/
theorem run_eq_ok_iff {t : Trigger} :
    t.run host s = (.ok (), s₂) ↔ ∃ flow, outcome (executeAll host t.name [] t.program) s = (.ok flow, s₂) ∧
      flow ≠ .done (.bool false) ∧ ∀ reason, flow ≠ .done (.str reason) := by
  have hverdict : ∀ flow, verdict t.name flow = .ok () ↔
      flow ≠ .done (.bool false) ∧ ∀ reason, flow ≠ .done (.str reason) := by
    intro flow
    unfold verdict
    split <;> simp_all
  rw [run_eq, outcome_bind_eq_ok]
  constructor
  · rintro ⟨flow, s₁, hflow, h⟩
    obtain ⟨hok, rfl⟩ := Prod.mk.inj h
    exact ⟨flow, hflow, (hverdict flow).1 hok⟩
  · rintro ⟨flow, hflow, h⟩
    exact ⟨flow, s₂, hflow, by rw [outcome_ofExcept, (hverdict flow).2 h]⟩

theorem run_of_error {t : Trigger} (h : outcome (executeAll host t.name [] t.program) s = (.error fault, s₂)) :
    t.run host s = (.error fault, s₂) := by
  rw [run_eq, outcome_bind, h]

/-- **A failing call ends its trigger.** Of the calls that a run makes, only the last one can fail, and then the run
fails with its error, where an unknown field is reported as one that this trigger has looked up. A fault of an
expression that the run comes to is the fault of the run, which ends in that state of the host. A run succeeds only if
all its calls have succeeded, if all expressions that it comes to have values, so that `CANFIG_ERR` is not among them,
and if the program does not end with `false` or a string. -/
theorem failing_call_is_last (t : Trigger) (host : Host σ) (s : σ) :
    ∃ result s' calls, t.run host s = (result, s') ∧ t.run host.noting (s, []) = (result, s', calls) ∧
      (∀ front call back e, calls = front ++ call :: back → call.error? = some e → back = [] ∧
        (∀ path, e = .unknownField path → result = .error (.fieldLookup t.name path)) ∧
        ((∀ path, e ≠ .unknownField path) → result = .error e)) ∧
      (∀ vars e s₁ fault s₂, Visits host t.name [] t.program s vars e s₁ →
        outcome (eval host t.name vars e) s₁ = (.error fault, s₂) → result = .error fault ∧ s' = s₂) ∧
      (result = .ok () → (∀ call ∈ calls, call.error? = none) ∧
        (∀ vars e s₁, Visits host t.name [] t.program s vars e s₁ →
          (∃ v s₂, outcome (eval host t.name vars e) s₁ = (.ok v, s₂)) ∧ ∀ arguments, e ≠ .call .err arguments) ∧
        ∃ flow, outcome (executeAll host t.name [] t.program) s = (.ok flow, s') ∧
          flow ≠ .done (.bool false) ∧ ∀ reason, flow ≠ .done (.str reason)) := by
  obtain ⟨hresult, hstate⟩ := run_noting t host s []
  obtain ⟨calls, hcalls, hends⟩ := run_endsAtFailure t host s []
  rw [outcome_of, List.nil_append] at hcalls
  rw [outcome_of, ← hresult] at hends
  rcases hrun : t.run host s with ⟨result, s'⟩
  rw [hrun] at hresult hstate hends
  dsimp only at hresult hstate hends
  have hvisits : ∀ vars e s₁ fault s₂, Visits host t.name [] t.program s vars e s₁ →
      outcome (eval host t.name vars e) s₁ = (.error fault, s₂) → result = .error fault ∧ s' = s₂ := by
    intro vars e s₁ fault s₂ hvisits hfault
    have hfails := run_of_error (executeAll_of_visits hvisits hfault)
    rw [hrun] at hfails
    exact Prod.mk.inj hfails
  refine ⟨result, s', calls, rfl, ?noted, ?calls, hvisits, ?ok⟩
  case noted => rw [hresult, hstate, ← hcalls]
  case calls =>
    rintro front call back e rfl hcall
    obtain ⟨hback, rfl⟩ := hends.of_error? hcall
    refine ⟨hback, ?_, fun hother => ?_⟩
    · rintro path rfl
      rfl
    · rw [lookupError_of_ne hother]
  case ok =>
    rintro rfl
    refine ⟨hends, fun vars e s₁ hvisit => ?_, run_eq_ok_iff.1 hrun⟩
    have hvalue : ∃ v s₂, outcome (eval host t.name vars e) s₁ = (.ok v, s₂) := by
      rcases hout : outcome (eval host t.name vars e) s₁ with ⟨fault | v, s₂⟩
      · exact absurd (hvisits vars e s₁ fault s₂ hvisit hout).1 nofun
      · exact ⟨v, s₂, rfl⟩
    refine ⟨hvalue, ?_⟩
    rintro arguments rfl
    obtain ⟨v, s₂, hv⟩ := hvalue
    exact eval_err_ne_ok hv

end GuardedConfig.Trigger
