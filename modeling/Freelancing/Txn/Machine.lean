import Freelancing.Txn.Prog

/-!
# Sessions under READ COMMITTED

`Sys`: the committed database, the outside world, the holders of the locks, and for every session
what is left of its program and the writes of its open transaction. A step runs one statement of
one session: a read sees what is committed now, a lock statement waits until no other session
holds the lock, a commit publishes the session's writes and gives up its locks, and a session may
be aborted at any point (a deadlock, a lost connection), which undoes its open transaction.

`Mode` says how much of this is allowed to overlap: whole calls one after another, transactions
one after another, or any interleaving of statements.
-/

namespace Txn

inductive Mode
  | callByCall
  | serial
  | readCommitted
  deriving DecidableEq, Repr

/-- Does a session inside a transaction keep the others from running? -/
def Mode.inTxn : Mode → Bool
  | .readCommitted => false
  | _ => true

/-- Does a session between two of its transactions keep the others from running? -/
def Mode.inCall : Mode → Bool
  | .callByCall => true
  | _ => false

section
variable (σ κ π ρ α ε R ν : Type)

structure Session where
  prog : Prog σ κ π ρ α ε R
  pend : σ → σ

structure Sys where
  db : σ
  env : ν
  owner : κ → Option Nat
  running : Option Nat
  sess : Nat → Session σ κ π ρ α ε R

/-- What the scheduler picks for a session: its next statement, an answer of the outside world
(and the outside world afterwards), or its end. -/
inductive Choice
  | go
  | answer (a : α) (env : ν)
  | abort (e : ε)

/-- What a step did: a labelled statement, with the committed database before it, the one its
session saw (for a commit: the one it committed) and the outside world, or a call. -/
inductive Move
  | stmt (i : Nat) (p : π) (db view : σ) (env : ν)
  | call (i : Nat) (q : ρ) (a : α) (env env' : ν)
  | silent (i : Nat)

end

namespace Sys

variable {σ κ π ρ α ε R ν : Type}

def init (d : σ) (e : ν) (p : Nat → Prog σ κ π ρ α ε R) : Sys σ κ π ρ α ε R ν :=
  ⟨d, e, fun _ => none, none, fun i => ⟨p i, id⟩⟩

/-- Session `i` goes on with `p`, its transaction still open. -/
def goOn (s : Sys σ κ π ρ α ε R ν) (i : Nat) (busy : Bool) (p : Prog σ κ π ρ α ε R)
    (pend : σ → σ) : Sys σ κ π ρ α ε R ν :=
  { s with
    running := if busy then some i else none
    sess := Function.update s.sess i ⟨p, pend⟩ }

/-- Session `i` goes on with `p` after the end of its transaction: no writes, no locks. -/
def endTxn (s : Sys σ κ π ρ α ε R ν) (i : Nat) (busy : Bool) (p : Prog σ κ π ρ α ε R) :
    Sys σ κ π ρ α ε R ν :=
  { s.goOn i busy p id with owner := fun k => if s.owner k = some i then none else s.owner k }

/-- The database as session `i` sees it: what is committed, with its own writes on top. -/
def seen (s : Sys σ κ π ρ α ε R ν) (i : Nat) : σ := (s.sess i).pend s.db

/-- What session `i` has returned. -/
def returned? (s : Sys σ κ π ρ α ε R ν) (i : Nat) : Option R :=
  match (s.sess i).prog with
  | .ret r => some r
  | _ => none

variable [DecidableEq κ]

/-- One statement of session `i`, if it can run now. -/
def step? (m : Mode) (s : Sys σ κ π ρ α ε R ν) (i : Nat) (c : Choice α ε ν) :
    Option (Sys σ κ π ρ α ε R ν × Move σ π ρ α ν) :=
  if s.running = none ∨ s.running = some i then
    match c, (s.sess i).prog with
    | .abort e, _ => some (s.endTxn i false (.raise e), .silent i)
    | .go, .ret r => some (s.endTxn i false (.ret r), .silent i)
    | .go, .raise e => some (s.endTxn i false (.raise e), .silent i)
    | .go, .read p next =>
      some (s.goOn i m.inTxn (next (s.seen i)) (s.sess i).pend, .stmt i p s.db (s.seen i) s.env)
    | .go, .lock p sel next =>
      match sel (s.seen i) with
      | none => some (s.goOn i m.inTxn (next (s.seen i)) (s.sess i).pend,
          .stmt i p s.db (s.seen i) s.env)
      | some k =>
        if s.owner k = none ∨ s.owner k = some i then
          some ({ s.goOn i m.inTxn (next (s.seen i)) (s.sess i).pend with
            owner := Function.update s.owner k (some i) }, .stmt i p s.db (s.seen i) s.env)
        else none
    | .go, .write w next =>
      some (s.goOn i (decide (s.running = some i)) next (w ∘ (s.sess i).pend), .silent i)
    | .answer a env', .call q next =>
      some ({ s.goOn i m.inTxn (next a) (s.sess i).pend with env := env' },
        .call i q a s.env env')
    | .go, .commit p next =>
      some ({ s.endTxn i m.inCall next with db := s.seen i }, .stmt i p s.db (s.seen i) s.env)
    | .go, .rollback next => some (s.endTxn i m.inCall next, .silent i)
    | _, _ => none
  else none

/-- One step of the system whose move satisfies `ok`. -/
def Step (m : Mode) (ok : Move σ π ρ α ν → Prop) (s s' : Sys σ κ π ρ α ε R ν) : Prop :=
  ∃ i c mv, s.step? m i c = some (s', mv) ∧ ok mv

/-- A run: any number of steps. -/
def Run (m : Mode) (ok : Move σ π ρ α ν → Prop) :
    Sys σ κ π ρ α ε R ν → Sys σ κ π ρ α ε R ν → Prop :=
  Relation.ReflTransGen (Step m ok)

/-- Session `i` takes its next `n` statements. -/
def goes (i n : Nat) : List (Nat × Choice α ε ν) := List.replicate n (i, .go)

/-- The steps of a schedule, in order. -/
def exec (m : Mode) : Sys σ κ π ρ α ε R ν → List (Nat × Choice α ε ν) →
    Option (Sys σ κ π ρ α ε R ν × List (Move σ π ρ α ν))
  | s, [] => some (s, [])
  | s, (i, c) :: rest => do
    let (s', mv) ← s.step? m i c
    let (s'', mvs) ← exec m s' rest
    return (s'', mv :: mvs)

theorem run_of_exec {m : Mode} {ok : Move σ π ρ α ν → Prop} :
    ∀ {l : List (Nat × Choice α ε ν)} {s s' : Sys σ κ π ρ α ε R ν} {mvs : List (Move σ π ρ α ν)},
      exec m s l = some (s', mvs) → (∀ mv ∈ mvs, ok mv) → Run m ok s s'
  | [], s, s', mvs, h, _ => by
    simp only [exec, Option.some.injEq, Prod.mk.injEq] at h
    rw [h.1]
    exact .refl
  | (i, c) :: rest, s, s', mvs, h, hok => by
    simp only [exec, Option.bind_eq_bind, Option.bind_eq_some_iff, Option.pure_def,
      Option.some.injEq, Prod.exists, Prod.mk.injEq] at h
    obtain ⟨s1, mv, h1, s2, mvs', h2, rfl, rfl⟩ := h
    refine .head ⟨i, c, mv, h1, hok mv (by simp)⟩ (run_of_exec h2 fun x hx => hok x ?_)
    exact List.mem_cons_of_mem _ hx

/-- A schedule that runs to a state with `p`, every move of which `q` accepts. -/
theorem exists_run_of_exec {m : Mode} {ok : Move σ π ρ α ν → Prop} {s : Sys σ κ π ρ α ε R ν}
    {l : List (Nat × Choice α ε ν)} {q : Move σ π ρ α ν → Bool} {p : Sys σ κ π ρ α ε R ν → Bool}
    (h : ((exec m s l).any fun r => r.2.all q && p r.1) = true) (hq : ∀ mv, q mv = true → ok mv) :
    ∃ s', Run m ok s s' ∧ p s' = true := by
  obtain ⟨⟨s', mvs⟩, he, hp⟩ := (Option.any_eq_true _ _).1 h
  obtain ⟨hall, hp⟩ := Bool.and_eq_true_iff.1 hp
  exact ⟨s', run_of_exec he fun mv hm => hq mv (List.all_eq_true.1 hall mv hm), hp⟩

theorem exists_run (m : Mode) (s : Sys σ κ π ρ α ε R ν) (q : Move σ π ρ α ν → Bool)
    (l : List (Nat × Choice α ε ν)) (p : Sys σ κ π ρ α ε R ν → Bool)
    (h : ((exec m s l).any fun r => r.2.all q && p r.1) = true) :
    ∃ s', Run m (fun mv => q mv = true) s s' ∧ p s' = true :=
  exists_run_of_exec h fun _ h => h

/-- A schedule that runs to a state with `p`. -/
theorem exists_free_run (m : Mode) (s : Sys σ κ π ρ α ε R ν) (l : List (Nat × Choice α ε ν))
    (p : Sys σ κ π ρ α ε R ν → Bool) (h : ((exec m s l).any fun r => p r.1) = true) :
    ∃ s', Run m (fun _ => True) s s' ∧ p s' = true := by
  obtain ⟨⟨s', mvs⟩, he, hp⟩ := (Option.any_eq_true _ _).1 h
  exact ⟨s', run_of_exec he fun _ _ => trivial, hp⟩

theorem Step.mono {m : Mode} {ok ok' : Move σ π ρ α ν → Prop} (h : ∀ mv, ok mv → ok' mv)
    {s s' : Sys σ κ π ρ α ε R ν} (hs : Step m ok s s') : Step m ok' s s' := by
  obtain ⟨i, c, mv, h1, h2⟩ := hs
  exact ⟨i, c, mv, h1, h mv h2⟩

theorem Run.mono {m : Mode} {ok ok' : Move σ π ρ α ν → Prop} (h : ∀ mv, ok mv → ok' mv)
    {s s' : Sys σ κ π ρ α ε R ν} (hs : Run m ok s s') : Run m ok' s s' :=
  hs.lift id fun _ _ => Step.mono h

end Sys

end Txn
