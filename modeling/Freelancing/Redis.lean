import Mathlib.Logic.Function.Basic

/-!
# A Redis store

Keys hold a text, a set or a counter, and may have a deadline after which they are gone. `exec` is
one command, which the server runs at once; `wait` lets time pass, in milliseconds. The lemmas say
of every command what it leaves alone.
-/

namespace Redis

variable {K V : Type}

inductive Value (V : Type)
  | text (v : V)
  | members (l : List String)
  | number (n : Int)

structure Cell (V : Type) where
  value : Value V
  deadline : Option Nat

structure Store (K V : Type) where
  now : Nat
  cell : K → Option (Cell V)

def Store.empty (now : Nat) : Store K V := ⟨now, fun _ => none⟩

inductive Command (K V : Type)
  | get (k : K)
  | set (k : K) (v : V) (ex : Nat)
  | sadd (k : K) (m : String)
  | srem (k : K) (m : String)
  | scard (k : K)
  | expire (k : K) (seconds : Nat)
  | delete (k : K)
  | present (k : K)
  | incr (k : K)

inductive Reply (V : Type)
  | nil
  | ok
  | text (v : V)
  | int (n : Int)
  | wrongType

def Command.key : Command K V → K
  | .get k | .set k _ _ | .sadd k _ | .srem k _ | .scard k | .expire k _ | .delete k | .present k
  | .incr k => k

/-- The cell of a key whose deadline has not passed. -/
def Store.get (s : Store K V) (k : K) : Option (Cell V) :=
  (s.cell k).filter fun c => c.deadline.all fun t => s.now ≤ t

def Store.wait (n : Nat) (s : Store K V) : Store K V := { s with now := s.now + n }

section
variable [DecidableEq K]

def Store.put (k : K) (c : Option (Cell V)) (s : Store K V) : Store K V :=
  { s with cell := Function.update s.cell k c }

/-- The set that is left, which is no key when it is empty. -/
def remaining (l : List String) (deadline : Option Nat) : Option (Cell V) :=
  if l = [] then none else some ⟨.members l, deadline⟩

def exec : Command K V → Store K V → Store K V × Reply V
  | .get k, s =>
    match s.get k with
    | none => (s, .nil)
    | some ⟨.text v, _⟩ => (s, .text v)
    | some _ => (s, .wrongType)
  | .set k v ex, s => (s.put k (some ⟨.text v, some (s.now + 1000 * ex)⟩), .ok)
  | .sadd k m, s =>
    match s.get k with
    | none => (s.put k (some ⟨.members [m], none⟩), .int 1)
    | some ⟨.members l, t⟩ =>
      if m ∈ l then (s, .int 0) else (s.put k (some ⟨.members (m :: l), t⟩), .int 1)
    | some _ => (s, .wrongType)
  | .srem k m, s =>
    match s.get k with
    | none => (s, .int 0)
    | some ⟨.members l, t⟩ =>
      if m ∈ l then (s.put k (remaining (l.erase m) t), .int 1) else (s, .int 0)
    | some _ => (s, .wrongType)
  | .scard k, s =>
    match s.get k with
    | none => (s, .int 0)
    | some ⟨.members l, _⟩ => (s, .int l.length)
    | some _ => (s, .wrongType)
  | .expire k seconds, s =>
    match s.get k with
    | none => (s, .int 0)
    | some c => (s.put k (some { c with deadline := some (s.now + 1000 * seconds) }), .int 1)
  | .delete k, s => (s.put k none, .int (if (s.get k).isSome then 1 else 0))
  | .present k, s => (s, .int (if (s.get k).isSome then 1 else 0))
  | .incr k, s =>
    match s.get k with
    | none => (s.put k (some ⟨.number 1, none⟩), .int 1)
    | some ⟨.number n, t⟩ => (s.put k (some ⟨.number (n + 1), t⟩), .int (n + 1))
    | some _ => (s, .wrongType)

/-- The commands of a `MULTI` block, which nothing runs between. -/
def execAll : List (Command K V) → Store K V → Store K V × List (Reply V)
  | [], s => (s, [])
  | c :: l, s =>
    let (s', r) := exec c s
    let (s'', rs) := execAll l s'
    (s'', r :: rs)

end

/-! ## Deadlines -/

section
variable {s : Store K V} {k : K} {c : Cell V} {n : Nat}

theorem get_eq_some :
    s.get k = some c ↔ s.cell k = some c ∧ ∀ t, c.deadline = some t → s.now ≤ t := by
  simp [Store.get, Option.filter_eq_some_iff, Option.all_eq_true]

@[simp] theorem wait_now : (s.wait n).now = s.now + n := rfl

/-- A key is gone when its deadline has passed. -/
theorem get_none_of_deadline (h : ∀ c, s.cell k = some c → ∃ t, c.deadline = some t ∧ t < s.now) :
    s.get k = none := by
  cases hg : s.get k with
  | none => rfl
  | some c =>
    obtain ⟨hc, hd⟩ := get_eq_some.1 hg
    obtain ⟨t, ht, hlt⟩ := h c hc
    have := hd t ht
    omega

end

/-! ## What a command leaves alone -/

section
variable [DecidableEq K] {s : Store K V} {k k' : K} {c : Command K V} {x : Option (Cell V)}

@[simp] theorem put_now : (s.put k x).now = s.now := rfl

@[simp] theorem put_cell : (s.put k x).cell k' = if k' = k then x else s.cell k' := by
  simp [Store.put, Function.update_apply]

theorem put_cell_self : (s.put k x).cell k = x := by simp

/-- A command leaves the store alone, or it writes the cell of its key. -/
theorem exec_store (c : Command K V) (s : Store K V) :
    (exec c s).1 = s ∨ ∃ x, (exec c s).1 = s.put c.key x := by
  cases c with
  | get k => simp only [exec]; split <;> exact .inl rfl
  | set k v ex => exact .inr ⟨_, rfl⟩
  | sadd k m =>
    simp only [exec]
    split
    · exact .inr ⟨_, rfl⟩
    · split
      · exact .inl rfl
      · exact .inr ⟨_, rfl⟩
    · exact .inl rfl
  | srem k m =>
    simp only [exec]
    split
    · exact .inl rfl
    · split
      · exact .inr ⟨_, rfl⟩
      · exact .inl rfl
    · exact .inl rfl
  | scard k => simp only [exec]; split <;> exact .inl rfl
  | expire k seconds =>
    simp only [exec]
    split
    · exact .inl rfl
    · exact .inr ⟨_, rfl⟩
  | delete k => exact .inr ⟨_, rfl⟩
  | present k => exact .inl rfl
  | incr k =>
    simp only [exec]
    split
    · exact .inr ⟨_, rfl⟩
    · exact .inr ⟨_, rfl⟩
    · exact .inl rfl

@[simp] theorem exec_now : (exec c s).1.now = s.now := by
  rcases exec_store c s with h | ⟨x, h⟩ <;> rw [h]
  rfl

theorem exec_cell_ne (h : k ≠ c.key) : (exec c s).1.cell k = s.cell k := by
  rcases exec_store c s with he | ⟨x, he⟩ <;> rw [he]
  simp [h]

/-- What a `GET` has read is there. -/
theorem cell_of_exec_get {v : V} (h : (exec (.get k) s).2 = .text v) :
    ∃ a, s.cell k = some a ∧ a.value = .text v := by
  simp only [exec] at h
  split at h
  · cases h
  · rename_i v' t hg
    cases h
    exact ⟨_, (get_eq_some.1 hg).1, rfl⟩
  · cases h

@[simp] theorem exec_get_store : (exec (.get k) s).1 = s := by
  simp only [exec]
  split <;> rfl

@[simp] theorem put_put {y : Option (Cell V)} : (s.put k x).put k y = s.put k y := by
  simp [Store.put]

theorem put_get {a : Cell V} (h : ∀ t, a.deadline = some t → s.now ≤ t) :
    (s.put k (some a)).get k = some a := get_eq_some.2 ⟨by simp, h⟩

/-- A counter that the same block gives a time to live. -/
theorem execAll_incr_expire {n : Int} {seconds : Nat}
    (h : s.get k = none ∧ n = 0 ∨ ∃ t, s.get k = some ⟨.number n, t⟩) :
    execAll [.incr k, .expire k seconds] s =
      (s.put k (some ⟨.number (n + 1), some (s.now + 1000 * seconds)⟩),
        [.int (n + 1), .int 1]) := by
  rcases h with ⟨hg, rfl⟩ | ⟨t, hg⟩
  · simp [execAll, exec, hg, put_get (s := s) (k := k) (a := ⟨.number 1, none⟩) (by simp)]
  · simp [execAll, exec, hg, put_get (a := ⟨.number (n + 1), t⟩) (get_eq_some.1 hg).2]

end

end Redis
