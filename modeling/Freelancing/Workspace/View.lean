import Mathlib.Data.List.Sort

/-!
# The conversation view

`communication-workspace.tsx` for one conversation: the messages on display and the cursor
`latestSequence`, moved by the initial load, by realtime deliveries, by the answers of polls and by
the client's own sends. The server's messages are in the order of their sequence numbers; an answer
is read from the messages that the server has when it serves the request, and arrives later.
-/

namespace Workspace

structure Message where
  id : Nat
  sequence : Nat
  body : String
  deriving DecidableEq

/-! ## Merging -/

/-- `byId.set(item.id, item)`. -/
def upsert (l : List Message) (m : Message) : List Message :=
  if l.any fun x => x.id = m.id then l.map fun x => if x.id = m.id then m else x else l ++ [m]

def sortBySequence (l : List Message) : List Message :=
  l.insertionSort fun x y => x.sequence ≤ y.sequence

def mergeMessages (current incoming : List Message) : List Message :=
  sortBySequence (incoming.foldl upsert (current.foldl upsert []))

/-! ## The view -/

structure View where
  messages : List Message
  latestSequence : Nat
  deriving DecidableEq

/-- `onMessage`, and what `submitMessage` does with the persisted message. -/
def View.add (v : View) (m : Message) : View where
  messages := mergeMessages v.messages [m]
  latestSequence := max v.latestSequence m.sequence

/-- The initial load. -/
def View.load (items : List Message) : View where
  messages := items
  latestSequence := (items.getLast?.map Message.sequence).getD 0

/-- The answer of a poll. -/
def View.merge (v : View) (after : Nat) (items : List Message) : View :=
  if items.isEmpty then v
  else {
    messages := mergeMessages v.messages items
    latestSequence := max v.latestSequence ((items.getLast?.map Message.sequence).getD after) }

/-! ## Runs of the client -/

/-- A poll that waits for its answer, and how many messages the server had when it was sent. -/
structure Poll where
  after : Nat
  sentAt : Nat
  deriving DecidableEq

structure State where
  server : List Message
  view : View
  loading : Option Nat
  polls : List Poll
  live : Bool
  deriving DecidableEq

/-- `listMessages(conversation, after, 100)` on a server with the messages `stored`. -/
def listMessages (stored : List Message) (after : Nat) : List Message :=
  (stored.filter fun m => after < m.sequence).take 100

def State.mount (server : List Message) : State where
  server := server
  view := ⟨[], 0⟩
  loading := none
  polls := []
  live := false

inductive Event
  | stored (m : Message)
  | connection (live : Bool)
  | loadSent
  | loaded (served : Nat)
  | loadFailed
  | realtime (m : Message)
  | pollSent
  | polled (p : Poll) (served : Nat)
  | pollFailed (p : Poll)
  | sent (m : Message)
  deriving DecidableEq

/-- The server has had `served` messages since a request that was sent when it had `sentAt`. -/
def State.served (s : State) (sentAt served : Nat) : Bool :=
  sentAt ≤ served && served ≤ s.server.length

/-- `none`: the event cannot happen now. -/
def State.step? (s : State) : Event → Option State
  | .stored m =>
    if m.sequence = s.server.length + 1 && s.server.all fun x => x.id ≠ m.id then
      some { s with server := s.server ++ [m] }
    else none
  | .connection live => some { s with live := live }
  | .loadSent =>
    -- an effect that runs again aborts the load before it
    some { s with loading := some s.server.length }
  | .loaded served =>
    match s.loading with
    | none => none
    | some sentAt =>
      if s.served sentAt served then
        some { s with loading := none, view := .load (listMessages (s.server.take served) 0) }
      else none
  | .loadFailed => some { s with loading := none }
  | .realtime m => if m ∈ s.server then some { s with view := s.view.add m } else none
  | .pollSent =>
    if s.live then none
    else some { s with polls := s.polls ++ [⟨s.view.latestSequence, s.server.length⟩] }
  | .polled p served =>
    if p ∈ s.polls && s.served p.sentAt served then
      some { s with
        polls := s.polls.erase p
        view := s.view.merge p.after (listMessages (s.server.take served) p.after) }
    else none
  | .pollFailed p => some { s with polls := s.polls.erase p }
  | .sent m => if m ∈ s.server then some { s with view := s.view.add m } else none

/-- `P` holds before and after every event of the run. -/
def Always (P : State → Prop) : State → List Event → Prop
  | s, [] => P s
  | s, e :: es => P s ∧ ∀ s', s.step? e = some s' → Always P s' es

/-- Every event of the run meets the condition `C`. -/
def Meets (C : State → Event → Bool) : State → List Event → Prop
  | _, [] => True
  | s, e :: es => ∀ s', s.step? e = some s' → C s e = true ∧ Meets C s' es

instance decidableMeets (C : State → Event → Bool) : (s : State) → (es : List Event) →
    Decidable (Meets C s es)
  | _, [] => isTrue trivial
  | s, e :: es =>
    match hs : s.step? e with
    | none => isTrue fun s' h => by
      rw [hs] at h
      cases h
    | some s₁ =>
      have := decidableMeets C s₁ es
      decidable_of_iff (C s e = true ∧ Meets C s₁ es)
        ⟨fun h s' h' => Option.some.inj (hs.symm.trans h') ▸ h, fun h => h s₁ hs⟩

end Workspace
