import GuardedConfig.Proofs.Outcome
import GuardedConfig.Trigger.Run

/-!
# `Proofs.Interpreter` — triggers see only what their host shows

A trigger reaches its surroundings through its host alone. So two hosts whose operations are related make every
trigger end alike, and what all operations of a host keep, every trigger keeps. A trigger renames some faults of its
host, and what relates faults must not mind that.

## Contents

* `Host.Relates`, `Host.Corresponds`, `Host.Keeps`
* `eval_relates`, `executeAll_relates` — by recursion on the program
* `run_relates`, `run_corresponds`, `run_keeps`
-/

namespace GuardedConfig.Trigger

variable {σ τ : Type} {R E : σ → τ → Prop} {F : Error → Error → σ → τ → Prop}

/-- The operations of two hosts are related. -/
structure Host.Relates (R : σ → τ → Prop) (F : Error → Error → σ → τ → Prop) (a : Host σ) (b : Host τ) : Prop where
  fails : ∀ trigger reason s t, R s t → F (.trigger trigger reason) (.trigger trigger reason) s t
  renames : ∀ trigger e e' s t, F e e' s t → F (lookupError trigger e) (lookupError trigger e') s t
  get : ∀ path, GuardedConfig.Relates R F (Task.of (a.get path)) (Task.of (b.get path))
  set : ∀ path value, GuardedConfig.Relates R F (Task.of (a.set path value)) (Task.of (b.set path value))
  warn : ∀ trigger text s t, R s t → R (a.warn trigger text s) (b.warn trigger text t)

/-- The operations of two hosts correspond. -/
structure Host.Corresponds (R E : σ → τ → Prop) (a : Host σ) (b : Host τ) : Prop where
  fails : ∀ s t, R s t → E s t
  get : ∀ path, GuardedConfig.Corresponds R E (Task.of (a.get path)) (Task.of (b.get path))
  set : ∀ path value, GuardedConfig.Corresponds R E (Task.of (a.set path value)) (Task.of (b.set path value))
  warn : ∀ trigger text s t, R s t → R (a.warn trigger text s) (b.warn trigger text t)

/-- The operations of a host keep a property. -/
structure Host.Keeps (I J : σ → Prop) (a : Host σ) : Prop where
  fails : ∀ s, I s → J s
  get : ∀ path, GuardedConfig.Keeps I J (Task.of (a.get path))
  set : ∀ path value, GuardedConfig.Keeps I J (Task.of (a.set path value))
  warn : ∀ trigger text s, I s → I (a.warn trigger text s)

theorem Host.Corresponds.relates {a : Host σ} {b : Host τ} (h : a.Corresponds R E b) :
    a.Relates R (fun _ _ => E) b where
  fails _ _ := h.fails
  renames _ _ _ _ _ he := he
  get path := GuardedConfig.Corresponds.iff_relates.1 (h.get path)
  set path value := GuardedConfig.Corresponds.iff_relates.1 (h.set path value)
  warn := h.warn

theorem Host.Keeps.corresponds {I J : σ → Prop} {a : Host σ} (h : a.Keeps I J) :
    Host.Corresponds (fun s t => s = t ∧ I s) (fun s t => s = t ∧ J s) a a where
  fails s _ hst := ⟨hst.1, h.fails s hst.2⟩
  get path := GuardedConfig.Keeps.iff_corresponds.1 (h.get path)
  set path value := GuardedConfig.Keeps.iff_corresponds.1 (h.set path value)
  warn := by
    rintro trigger text s _ ⟨rfl, hs⟩
    exact ⟨rfl, h.warn trigger text s hs⟩

/-! ## Capabilities -/

variable {a : Host σ} {b : Host τ}

theorem ofResult_relates (h : a.Relates R F b) (trigger : String) (r : Except String Json) :
    Relates R F (ofResult trigger r) (ofResult trigger r) := by
  cases r with
  | ok v => exact .pure v
  | error reason => exact .throw (h.fails _ _)

theorem pathOf_relates (h : a.Relates R F b) (trigger : String) (v : Json) :
    Relates R F (pathOf trigger v) (pathOf trigger v) := by
  cases v with
  | str path => exact .pure path
  | _ => exact .throw (h.fails _ _)

/-- A step of the host only renames some of its faults. -/
theorem onHost_relates {α : Type} (h : a.Relates R F b) {f : σ → Except Error α × σ} {g : τ → Except Error α × τ}
    (hstep : Relates R F (Task.of f) (Task.of g)) (trigger : String) :
    Relates R F (onHost trigger f) (onHost trigger g) := by
  intro s t hst
  have hend := hstep s t hst
  rw [outcome_of, outcome_of] at hend
  change EndRelated R F (onHost trigger f s) (onHost trigger g t)
  unfold onHost ExceptT.mk
  dsimp only
  revert hend
  rcases f s with ⟨e | _, s'⟩ <;> rcases g t with ⟨e' | _, t'⟩ <;> intro hend
  · exact h.renames trigger e e' s' t' hend
  · exact hend
  · exact hend
  · exact hend

theorem call_relates (h : a.Relates R F b) (trigger : String) (c : Capability) (arguments : List Json) :
    Relates R F (call a trigger c arguments) (call b trigger c arguments) := by
  cases c with
  | get => exact (pathOf_relates h trigger _).bind fun path => onHost_relates h (h.get path) trigger
  | set =>
    exact (pathOf_relates h trigger _).bind fun path =>
      (onHost_relates h (h.set path _) trigger).bind fun _ => .pure _
  | err => exact .throw (h.fails _ _)
  | warn => exact fun s t hst => ⟨rfl, h.warn trigger _ s t hst⟩
  | assertRegex => exact ofResult_relates h trigger _
  | assertEqual => exact .pure _
  | assertUnique => exact ofResult_relates h trigger _

/-! ## Programs -/

mutual

theorem eval_relates (h : a.Relates R F b) (trigger : String) (vars : Variables) :
    ∀ e : Expr, Relates R F (eval a trigger vars e) (eval b trigger vars e)
  | .literal v => by
    rw [eval, eval]
    exact .pure v
  | .var name => by
    rw [eval, eval]
    cases vars.lookup name with
    | some v => exact .pure v
    | none => exact .throw (h.fails _ _)
  | .not e => by
    rw [eval, eval]
    exact (eval_relates h trigger vars e).bind fun v => .pure _
  | .compare left op right => by
    rw [eval, eval]
    refine (eval_relates h trigger vars left).bind fun v => (eval_relates h trigger vars right).bind fun w => ?_
    cases holds op v w with
    | some b => exact .pure _
    | none => exact .throw (h.fails _ _)
  | .index target index => by
    rw [eval, eval]
    refine (eval_relates h trigger vars target).bind fun v =>
      (eval_relates h trigger vars index).bind fun i => ?_
    cases elementAt? v i with
    | some v => exact .pure _
    | none => exact .throw (h.fails _ _)
  | .member target name => by
    rw [eval, eval]
    refine (eval_relates h trigger vars target).bind fun v => ?_
    cases v.member? name with
    | some v => exact .pure _
    | none => exact .throw (h.fails _ _)
  | .call c arguments => by
    rw [eval, eval]
    exact (evalAll_relates h trigger vars arguments).bind fun values => call_relates h trigger c values

theorem evalAll_relates (h : a.Relates R F b) (trigger : String) (vars : Variables) :
    ∀ es : List Expr, Relates R F (evalAll a trigger vars es) (evalAll b trigger vars es)
  | [] => by
    rw [evalAll, evalAll]
    exact .pure _
  | e :: es => by
    rw [evalAll, evalAll]
    exact (eval_relates h trigger vars e).bind fun v =>
      (evalAll_relates h trigger vars es).bind fun vs => .pure _

end

mutual

theorem execute_relates (h : a.Relates R F b) (trigger : String) :
    ∀ (s : Stmt) (vars : Variables), Relates R F (execute a trigger vars s) (execute b trigger vars s)
  | .bind name e, vars => by
    rw [execute, execute]
    exact (eval_relates h trigger vars e).bind fun v => .pure _
  | .branch condition yes no, vars => by
    rw [execute, execute]
    refine (eval_relates h trigger vars condition).bind fun v => ?_
    cases truthy v with
    | true => exact executeAll_relates h trigger yes vars
    | false => exact executeAll_relates h trigger no vars
  | .done none, vars => by
    rw [execute, execute]
    exact .pure _
  | .done (some e), vars => by
    rw [execute, execute]
    exact (eval_relates h trigger vars e).bind fun v => .pure _
  | .eval e, vars => by
    rw [execute, execute]
    exact (eval_relates h trigger vars e).bind fun v => .pure _

theorem executeAll_relates (h : a.Relates R F b) (trigger : String) :
    ∀ (ss : List Stmt) (vars : Variables), Relates R F (executeAll a trigger vars ss) (executeAll b trigger vars ss)
  | [], vars => by
    rw [executeAll, executeAll]
    exact .pure _
  | s :: ss, vars => by
    rw [executeAll, executeAll]
    refine (execute_relates h trigger s vars).bind fun flow => ?_
    cases flow with
    | next vars => exact executeAll_relates h trigger ss vars
    | done v => exact .pure _

end

/-! ## Whole triggers -/

theorem verdict_relates (h : a.Relates R F b) (trigger : String) (flow : Flow) :
    Relates R F (Task.ofExcept (verdict trigger flow)) (Task.ofExcept (verdict trigger flow)) := by
  unfold verdict
  split
  · exact .throw (h.fails _ _)
  · exact .throw (h.fails _ _)
  · exact .pure ()

/-- Running a trigger is executing its program and then its verdict. -/
theorem of_run (t : Trigger) (a : Host σ) :
    Task.of (t.run a) = executeAll a t.name [] t.program >>= fun flow => Task.ofExcept (verdict t.name flow) := by
  funext s
  show t.run a s = outcome _ s
  rw [outcome_bind]
  show (match outcome (executeAll a t.name [] t.program) s with | (.ok flow, s) => _ | (.error e, s) => _) = _
  rcases outcome (executeAll a t.name [] t.program) s with ⟨_ | _, _⟩ <;> rfl

/-- Related hosts make a trigger end alike. -/
theorem run_relates (h : a.Relates R F b) (t : Trigger) : Relates R F (Task.of (t.run a)) (Task.of (t.run b)) := by
  rw [of_run, of_run]
  exact (executeAll_relates h t.name t.program []).bind fun flow => verdict_relates h t.name flow

/-- Corresponding hosts make a trigger end alike, whatever its faults. -/
theorem run_corresponds (h : a.Corresponds R E b) (t : Trigger) :
    Corresponds R E (Task.of (t.run a)) (Task.of (t.run b)) :=
  Corresponds.iff_relates.2 (run_relates h.relates t)

/-- What the operations of a host keep, a trigger keeps. -/
theorem run_keeps {I J : σ → Prop} (h : a.Keeps I J) (t : Trigger) : Keeps I J (Task.of (t.run a)) :=
  Keeps.iff_corresponds.2 (run_corresponds h.corresponds t)

end GuardedConfig.Trigger
