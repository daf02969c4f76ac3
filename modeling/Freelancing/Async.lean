import Mathlib.Data.List.Perm.Basic

/-!
# Asynchronous methods of one object

The methods of an object run one at a time, from one `await` to the next; while a call waits, other
calls run and change what the object holds. `wp` is the precondition of a method for an invariant
that holds whenever nothing runs: a method gives the invariant up between two awaits only, and what
it finds behind an await is the invariant, not what it left. `holds_of_run`: if all methods keep to
that, the invariant holds in every state that a run reaches.
-/

namespace Async

variable {Req : Type} {Value : Req → Type} {σ τ μ ε α β : Type}

/-! ## Code -/

/-- What a call waits for: a request to the surroundings, or a promise that is settled already. -/
inductive Wait (Req : Type)
  | request (r : Req)
  | settled (error : Option String)
  deriving DecidableEq

def Wait.Reply (Value : Req → Type) : Wait Req → Type
  | .request r => Except String (Value r)
  | .settled _ => Unit

/-- The body of an asynchronous method. -/
inductive Code (Value : Req → Type) (σ α : Type)
  | pure (a : α)
  | throw (message : String)
  | read (k : σ → Code Value σ α)
  | write (f : σ → σ) (k : Code Value σ α)
  | await (w : Wait Req) (k : w.Reply Value → Code Value σ α)

namespace Code

def bind : Code Value σ α → (α → Code Value σ β) → Code Value σ β
  | .pure a, f => f a
  | .throw m, _ => .throw m
  | .read k, f => .read fun s => (k s).bind f
  | .write g k, f => .write g (k.bind f)
  | .await w k, f => .await w fun x => (k x).bind f

instance : Monad (Code Value σ) where
  pure := .pure
  bind := .bind

def get : Code Value σ σ := .read .pure

def modify (f : σ → σ) : Code Value σ Unit := .write f (.pure ())

/-- `await` of a request. -/
def request (r : Req) : Code Value σ (Value r) :=
  .await (.request r) fun
    | .ok a => .pure a
    | .error m => .throw m

/-- `await` of a call of another asynchronous method: the caller goes on in a later turn. -/
def awaited : Code Value σ α → Code Value σ α
  | .pure a => .await (.settled none) fun _ => .pure a
  | .throw m => .await (.settled (some m)) fun _ => .throw m
  | .read k => .read fun s => (k s).awaited
  | .write f k => .write f k.awaited
  | .await w k => .await w fun x => (k x).awaited

def tryCatch : Code Value σ α → (String → Code Value σ α) → Code Value σ α
  | .pure a, _ => .pure a
  | .throw m, h => h m
  | .read k, h => .read fun s => (k s).tryCatch h
  | .write f k, h => .write f (k.tryCatch h)
  | .await w k, h => .await w fun x => (k x).tryCatch h

end Code

/-! ## Runs -/

/-- A call that waits. -/
structure Suspended (Value : Req → Type) (σ τ : Type) where
  tag : τ
  wait : Wait Req
  resume : wait.Reply Value → Code Value σ Unit

/-- What the object holds, and the calls that wait. -/
structure Sys (Value : Req → Type) (σ τ : Type) where
  state : σ
  calls : List (Suspended Value σ τ)

inductive Outcome (Value : Req → Type) (σ : Type)
  | settled (rejected : Bool)
  | suspended (w : Wait Req) (resume : w.Reply Value → Code Value σ Unit)

/-- The code up to its next `await`. -/
def Code.run : Code Value σ Unit → σ → σ × Outcome Value σ
  | .pure _, s => (s, .settled false)
  | .throw _, s => (s, .settled true)
  | .read k, s => (k s).run s
  | .write f k, s => k.run (f s)
  | .await w k, s => (s, .suspended w k)

/-- The methods of an object, what the end of a call adds to its history and what its surroundings
change. -/
structure Design (Value : Req → Type) (σ τ μ ε : Type) where
  tag : μ → τ
  code : μ → Code Value σ Unit
  finish : τ → Bool → σ → σ
  environment : ε → σ → σ

/-- A method is called, a call goes on with an answer to what it waits for, or the surroundings
change. -/
inductive Event (Value : Req → Type) (μ ε : Type)
  | call (m : μ)
  | resume (i : Nat) (answer : (w : Wait Req) → w.Reply Value)
  | environment (e : ε)

namespace Design

variable (D : Design Value σ τ μ ε)

def proceed (t : τ) (code : Code Value σ Unit) (rest : List (Suspended Value σ τ)) (s : σ) :
    Sys Value σ τ :=
  match code.run s with
  | (s, .settled rejected) => ⟨D.finish t rejected s, rest⟩
  | (s, .suspended w k) => ⟨s, ⟨t, w, k⟩ :: rest⟩

def step (s : Sys Value σ τ) : Event Value μ ε → Option (Sys Value σ τ)
  | .call m => some (D.proceed (D.tag m) (D.code m) s.calls s.state)
  | .resume i answer =>
    match s.calls[i]? with
    | none => none
    | some c => some (D.proceed c.tag (c.resume (answer c.wait)) (s.calls.eraseIdx i) s.state)
  | .environment e => some { s with state := D.environment e s.state }

def run (s : Sys Value σ τ) : List (Event Value μ ε) → Option (Sys Value σ τ)
  | [] => some s
  | e :: es => (D.step s e).bind fun s' => run s' es

/-- Every step of the run is taken where it may be. -/
def Meets (careful : Sys Value σ τ → Event Value μ ε → Prop) (s : Sys Value σ τ) :
    List (Event Value μ ε) → Prop
  | [] => True
  | e :: es => careful s e ∧ ∀ s', D.step s e = some s' → Meets careful s' es

variable {D}

theorem Meets.cons {careful : Sys Value σ τ → Event Value μ ε → Prop} {s s₁ : Sys Value σ τ}
    {e : Event Value μ ε} {es : List (Event Value μ ε)} (hs : D.step s e = some s₁)
    (he : careful s e) (h : D.Meets careful s₁ es) : D.Meets careful s (e :: es) := by
  refine ⟨he, fun s' hs' => ?_⟩
  rw [hs] at hs'
  cases hs'
  exact h

end Design

/-! ## Preconditions -/

/-- What the others see of a call that waits. -/
abbrev Label (Req τ : Type) := τ × Wait Req

def Suspended.label (c : Suspended Value σ τ) : Label Req τ := (c.tag, c.wait)

/-- An invariant of what the object holds and of what waits, and where a call may go on. -/
structure Rules (Value : Req → Type) (σ τ μ : Type) where
  Inv : List (Label Req τ) → σ → Prop
  Careful : (l : Label Req τ) → l.2.Reply Value → List (Label Req τ) → σ → Prop
  CarefulCall : μ → List (Label Req τ) → σ → Prop
  perm : ∀ {ls ls' s}, ls.Perm ls' → Inv ls s → Inv ls' s

variable (D : Design Value σ τ μ ε) (R : Rules Value σ τ μ)

def Event.Careful (s : Sys Value σ τ) : Event Value μ ε → Prop
  | .call m => R.CarefulCall m (s.calls.map (·.label)) s.state
  | .resume i answer => ∀ c, s.calls[i]? = some c →
      R.Careful c.label (answer c.wait) ((s.calls.eraseIdx i).map (·.label)) s.state
  | .environment _ => True

/-- The precondition of the code of a call, among calls that wait. -/
def wp (t : τ) : Code Value σ α → (α → List (Label Req τ) → σ → Prop) →
    (String → List (Label Req τ) → σ → Prop) → List (Label Req τ) → σ → Prop
  | .pure a, Q, _, rest, s => Q a rest s
  | .throw m, _, E, rest, s => E m rest s
  | .read k, Q, E, rest, s => wp t (k s) Q E rest s
  | .write f k, Q, E, rest, s => wp t k Q E rest (f s)
  | .await w k, Q, E, rest, s => R.Inv ((t, w) :: rest) s ∧ ∀ rest' s' x,
      R.Inv ((t, w) :: rest') s' → R.Careful (t, w) x rest' s' → wp t (k x) Q E rest' s'

variable {R} {t : τ} {Q Q' : α → List (Label Req τ) → σ → Prop}
  {E E' : String → List (Label Req τ) → σ → Prop} {rest : List (Label Req τ)} {s : σ}

theorem wp_mono {code : Code Value σ α} (hQ : ∀ a rest s, Q a rest s → Q' a rest s)
    (hE : ∀ m rest s, E m rest s → E' m rest s) (h : wp R t code Q E rest s) :
    wp R t code Q' E' rest s := by
  induction code generalizing rest s with
  | pure a => exact hQ a rest s h
  | throw m => exact hE m rest s h
  | read k ih => exact ih s h
  | write f k ih => exact ih h
  | await w k ih => exact ⟨h.1, fun rest' s' x hi hc => ih x (h.2 rest' s' x hi hc)⟩

theorem wp_get {Q : σ → List (Label Req τ) → σ → Prop} (h : Q s rest s) :
    wp R t Code.get Q E rest s := h

theorem wp_bind {Q : β → List (Label Req τ) → σ → Prop} {code : Code Value σ α}
    {f : α → Code Value σ β} (h : wp R t code (fun a rest s => wp R t (f a) Q E rest s) E rest s) :
    wp R t (code >>= f) Q E rest s := by
  change wp R t (code.bind f) Q E rest s
  induction code generalizing rest s with
  | pure a => exact h
  | throw m => exact h
  | read k ih => exact ih s h
  | write g k ih => exact ih h
  | await w k ih => exact ⟨h.1, fun rest' s' x hi hc => ih x (h.2 rest' s' x hi hc)⟩

theorem wp_tryCatch {code : Code Value σ α} {handler : String → Code Value σ α}
    (h : wp R t code Q (fun m rest s => wp R t (handler m) Q E rest s) rest s) :
    wp R t (code.tryCatch handler) Q E rest s := by
  induction code generalizing rest s with
  | pure a => exact h
  | throw m => exact h
  | read k ih => exact ih s h
  | write g k ih => exact ih h
  | await w k ih => exact ⟨h.1, fun rest' s' x hi hc => ih x (h.2 rest' s' x hi hc)⟩

/-- A later turn starts from the invariant. -/
theorem wp_awaited {code : Code Value σ α}
    (h : wp R t code
      (fun a rest s => R.Inv ((t, .settled none) :: rest) s ∧ ∀ rest' s',
        R.Inv ((t, .settled none) :: rest') s' → R.Careful (t, .settled none) () rest' s' →
          Q a rest' s')
      (fun m rest s => R.Inv ((t, .settled (some m)) :: rest) s ∧ ∀ rest' s',
        R.Inv ((t, .settled (some m)) :: rest') s' → R.Careful (t, .settled (some m)) () rest' s' →
          E m rest' s')
      rest s) :
    wp R t code.awaited Q E rest s := by
  induction code generalizing rest s with
  | pure a => exact ⟨h.1, fun rest' s' _ hi hc => h.2 rest' s' hi hc⟩
  | throw m => exact ⟨h.1, fun rest' s' _ hi hc => h.2 rest' s' hi hc⟩
  | read k ih => exact ih s h
  | write g k ih => exact ih h
  | await w k ih => exact ⟨h.1, fun rest' s' x hi hc => ih x (h.2 rest' s' x hi hc)⟩

theorem wp_request {r : Req} {Q : Value r → List (Label Req τ) → σ → Prop}
    (hi : R.Inv ((t, .request r) :: rest) s)
    (hok : ∀ rest' s' a, R.Inv ((t, .request r) :: rest') s' →
      R.Careful (t, .request r) (.ok a) rest' s' → Q a rest' s')
    (herror : ∀ rest' s' m, R.Inv ((t, .request r) :: rest') s' →
      R.Careful (t, .request r) (.error m) rest' s' → E m rest' s') :
    wp R t (Code.request r) Q E rest s := by
  refine ⟨hi, fun rest' s' x hi' hc => ?_⟩
  cases x with
  | ok a => exact hok rest' s' a hi' hc
  | error m => exact herror rest' s' m hi' hc

/-! ## Soundness -/

variable (R)

/-- The precondition of a whole call: its end keeps the invariant among the others. -/
def Sound (t : τ) (code : Code Value σ Unit) : List (Label Req τ) → σ → Prop :=
  wp R t code (fun _ rest s => R.Inv rest (D.finish t false s)) fun _ rest s =>
    R.Inv rest (D.finish t true s)

/-- The invariant holds, and every call that waits is sound for every answer. -/
structure Holds (s : Sys Value σ τ) : Prop where
  inv : R.Inv (s.calls.map (·.label)) s.state
  calls : ∀ c ∈ s.calls, ∀ rest s' x, R.Inv (c.label :: rest) s' → R.Careful c.label x rest s' →
    Sound D R c.tag (c.resume x) rest s'

variable {D R}

theorem holds_proceed {code : Code Value σ Unit} {cs : List (Suspended Value σ τ)}
    (h : Sound D R t code (cs.map (·.label)) s)
    (hcs : ∀ c ∈ cs, ∀ rest s' x, R.Inv (c.label :: rest) s' → R.Careful c.label x rest s' →
      Sound D R c.tag (c.resume x) rest s') :
    Holds D R (D.proceed t code cs s) := by
  induction code generalizing s with
  | pure a => exact ⟨h, hcs⟩
  | throw m => exact ⟨h, hcs⟩
  | read k ih => exact ih s h
  | write f k ih => exact ih h
  | await w k _ =>
    refine ⟨h.1, fun c hc => ?_⟩
    rcases List.mem_cons.1 hc with rfl | hc
    · exact fun rest s' x hi hx => h.2 rest s' x hi hx
    · exact hcs c hc

variable (hcode : ∀ m rest s, R.Inv rest s → R.CarefulCall m rest s →
  Sound D R (D.tag m) (D.code m) rest s)
  (henv : ∀ e ls s, R.Inv ls s → R.Inv ls (D.environment e s))
include hcode henv

theorem Holds.step {s s' : Sys Value σ τ} {e : Event Value μ ε} (h : Holds D R s)
    (he : e.Careful R s) (hs : D.step s e = some s') : Holds D R s' := by
  cases e with
  | call m =>
    cases hs
    exact holds_proceed (hcode m _ _ h.inv he) h.calls
  | environment e =>
    cases hs
    exact ⟨henv e _ _ h.inv, h.calls⟩
  | resume i answer =>
    cases hc : s.calls[i]? with
    | none => simp [Design.step, hc] at hs
    | some c =>
      simp only [Design.step, hc, Option.some.injEq] at hs
      obtain ⟨hi, hget⟩ := List.getElem?_eq_some_iff.1 hc
      have hperm : s.calls.Perm (c :: s.calls.eraseIdx i) := by
        rw [← hget]
        exact (List.getElem_cons_eraseIdx_perm hi).symm
      have hinv : R.Inv (c.label :: (s.calls.eraseIdx i).map (·.label)) s.state :=
        R.perm (hperm.map (·.label)) h.inv
      rw [← hs]
      exact holds_proceed (h.calls c (List.mem_of_getElem? hc) _ _ _ hinv (he c hc))
        fun d hd => h.calls d (List.mem_of_mem_eraseIdx hd)

/-- **The invariant holds in every state of a run whose steps are all careful.** -/
theorem holds_of_run {s s' : Sys Value σ τ} {es : List (Event Value μ ε)} (h : Holds D R s)
    (hes : D.Meets (fun s e => e.Careful R s) s es) (hs : D.run s es = some s') : Holds D R s' := by
  induction es generalizing s with
  | nil =>
    cases hs
    exact h
  | cons e es ih =>
    simp only [Design.run, Option.bind_eq_some_iff] at hs
    obtain ⟨s₁, hs₁, hrun⟩ := hs
    exact ih (h.step hcode henv hes.1 hs₁) (hes.2 s₁ hs₁) hrun

end Async
