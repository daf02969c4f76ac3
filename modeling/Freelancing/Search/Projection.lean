import Freelancing.Search.Services
import Mathlib.Data.List.Nodup
import Mathlib.Data.Set.BooleanAlgebra
import Mathlib.Order.CompletePartialOrder

/-!
# What the index has of a profile

`Inv`: an entry of the index is never ahead of its profile, and at the version of the profile it is
the profile's document; the event of every version of a profile is there, and what has been
published is in the index. `Advance`: what the steps of others do to the profile, the events and the
index that a session has seen. `projection`: both, for the services and an index that takes external
versions.
-/

namespace Search

open Money (UserId)
open Agreements (ProjectId)
open Txn (Point Move Design)

structure Entry where
  version : Nat
  document : Document

abbrev Index := UserId → Option Entry

/-- `version_type="external_gte"`. -/
def Index.accepts (e : Index) (user : UserId) (version : Nat) : Bool :=
  (e user).all fun x => x.version ≤ version

def Index.put (e : Index) (user : UserId) (x : Entry) : Index := Function.update e user (some x)

/-- What the index answers. A request that fails may have been carried out. -/
def Elastic (q : Request) (a : Answer) (e e' : Index) : Prop :=
  match q, a with
  | .ensureFreelancerIndex, _ => e' = e
  | .index user version document, .done =>
      e.accepts user version ∧ e' = e.put user ⟨version, document⟩
  | .index user version _, .versionConflict => e.accepts user version = false ∧ e' = e
  | .index user version document, .failed =>
    e' = e ∨ e.accepts user version ∧ e' = e.put user ⟨version, document⟩

/-! ## Rows after an update -/

namespace Db

variable (d : Db) (u v : UserId)

@[simp] theorem profile?_addProfile (p : FreelancerProfile) :
    (d.addProfile p).profile? u = if p.user = u then some p else d.profile? u := Table.get_cons

theorem profile?_modifyProfile {f : FreelancerProfile → FreelancerProfile}
    (hf : ∀ p, (f p).user = p.user) :
    (d.modifyProfile v f).profile? u = (d.profile? u).map fun p => if u = v then f p else p :=
  Table.get_modify hf

@[simp] theorem event?_addEvent (x : OutboxEvent) (k : EventId) :
    (d.addEvent x).event? k = if x.id = k then some x else d.event? k := Table.get_cons

theorem event?_publish (k k' : EventId) (now : Nat) : (d.publish k now).event? k' =
    (d.event? k').map fun x => if k' = k then { x with publishedAt := some now } else x :=
  Table.get_modify fun _ => rfl

end Db

/-! ## The invariant -/

/-- The accepted proposals for a project are its contractor's. -/
def Matched (a : Agreements.Db) : Prop :=
  ∀ x ∈ a.contracts, ∀ c x', a.contract? x.id = some (c, x') → ∀ p ∈ a.proposals,
    p.status = .accepted → p.project = x.project → p.freelancer = c.freelancer

/-- A document that may be in the index under this version. -/
def Fits (cfg : Settings) (d : Db) (user : UserId) (version : Nat) (document : Document) : Prop :=
  ∃ p, d.profile? user = some p ∧ version ≤ p.projectionVersion ∧
    (version = p.projectionVersion → document = d.document cfg p)

/-- What an event announces, is in the index. -/
def Reflected (e : Index) (x : OutboxEvent) : Prop :=
  ∃ y, e x.user = some y ∧ x.projectionVersion ≤ y.version

structure Inv (cfg : Settings) (d : Db) (e : Index) : Prop where
  ids : ∀ p ∈ d.profiles, ∀ q ∈ d.profiles, p.id = q.id → p.user = q.user
  users : (d.profiles.map (·.user)).Nodup
  matched : Matched d.agreements
  announced : ∀ u p, d.profile? u = some p →
    ∃ k x, d.event? k = some x ∧ x.user = u ∧ x.projectionVersion = p.projectionVersion
  behind : ∀ k x, d.event? k = some x →
    ∃ p, d.profile? x.user = some p ∧ x.projectionVersion ≤ p.projectionVersion
  indexed : ∀ u x, e u = some x → Fits cfg d u x.version x.document
  published : ∀ k x, d.event? k = some x → x.publishedAt.isSome → Reflected e x

theorem Inv.id_ne {cfg : Settings} {d : Db} {e : Index} (h : Inv cfg d e) {u v : UserId}
    {p q : FreelancerProfile} (hp : d.profile? u = some p) (hq : d.profile? v = some q)
    (hne : v ≠ u) : q.id ≠ p.id := by
  intro hid
  have := h.ids q (Table.get_mem hq) p (Table.get_mem hp) hid
  rw [Table.get_key hq, Table.get_key hp] at this
  exact hne this

/-! ## What the steps of others do -/

/-- The tables of the agreements that no service here changes. -/
structure Static (a a' : Agreements.Db) : Prop where
  proposals : a'.proposals = a.proposals
  contracts : a'.contracts = a.contracts
  money : a'.money = a.money

theorem Static.contract? {a a' : Agreements.Db} (h : Static a a') (id : Money.ContractId) :
    a'.contract? id = a.contract? id := by
  simp only [Agreements.Db.contract?, Agreements.Db.details?, h.contracts, h.money]

theorem Static.matched {a a' : Agreements.Db} (h : Static a a') (hm : Matched a) : Matched a' := by
  intro x hx c x' hc p hp
  rw [h.contracts] at hx
  rw [h.contract?] at hc
  rw [h.proposals] at hp
  exact hm x hx c x' hc p hp

/-- A profile of which no more is known than that it was loaded as `p`. -/
structure Newer (d d' : Db) (p p' : FreelancerProfile) : Prop where
  id : p'.id = p.id
  le : p.projectionVersion ≤ p'.projectionVersion
  same : p'.projectionVersion = p.projectionVersion → p' = p ∧ d'.sources p = d.sources p

structure Advance (held : Set LockName) (w w' : Db × Index) : Prop where
  profiles : ∀ u p, w.1.profile? u = some p → ∃ p', w'.1.profile? u = some p' ∧ Newer w.1 w'.1 p p'
  events : ∀ k x, w.1.event? k = some x → ∃ x', w'.1.event? k = some x' ∧ x'.user = x.user ∧
    x'.projectionVersion = x.projectionVersion
  index : ∀ u x, w.2 u = some x → ∃ x', w'.2 u = some x' ∧ x.version ≤ x'.version
  static : Static w.1.agreements w'.1.agreements
  newEvent : ∀ k, .event k ∈ held → w.1.event? k = none → w'.1.event? k = none
  newProfile : ∀ id, .profileId id ∈ held → (∀ p ∈ w.1.profiles, p.id ≠ id) →
    ∀ p ∈ w'.1.profiles, p.id ≠ id

namespace Advance

variable {held held' : Set LockName} {w w' w'' : Db × Index}

theorem refl (held : Set LockName) (w : Db × Index) : Advance held w w where
  profiles _ p h := ⟨p, h, rfl, Nat.le_refl _, fun _ => ⟨rfl, rfl⟩⟩
  events _ x h := ⟨x, h, rfl, rfl⟩
  index _ x h := ⟨x, h, Nat.le_refl _⟩
  static := ⟨rfl, rfl, rfl⟩
  newEvent _ _ h := h
  newProfile _ _ h := h

theorem trans (h : Advance held w w') (h' : Advance held w' w'') : Advance held w w'' where
  profiles u p hp := by
    obtain ⟨p', hp', hn⟩ := h.profiles u p hp
    obtain ⟨p'', hp'', hn'⟩ := h'.profiles u p' hp'
    refine ⟨p'', hp'', hn'.id.trans hn.id, hn.le.trans hn'.le, fun he => ?_⟩
    have hle := hn.le
    have hle' := hn'.le
    obtain ⟨rfl, hs⟩ := hn.same (by omega)
    obtain ⟨rfl, hs'⟩ := hn'.same he
    exact ⟨rfl, hs'.trans hs⟩
  events k x hx := by
    obtain ⟨x', hx', hu, hv⟩ := h.events k x hx
    obtain ⟨x'', hx'', hu', hv'⟩ := h'.events k x' hx'
    exact ⟨x'', hx'', hu'.trans hu, hv'.trans hv⟩
  index u x hx := by
    obtain ⟨x', hx', hv⟩ := h.index u x hx
    obtain ⟨x'', hx'', hv'⟩ := h'.index u x' hx'
    exact ⟨x'', hx'', hv.trans hv'⟩
  static := ⟨h'.static.proposals.trans h.static.proposals,
    h'.static.contracts.trans h.static.contracts, h'.static.money.trans h.static.money⟩
  newEvent k hk hn := h'.newEvent k hk (h.newEvent k hk hn)
  newProfile id hid hn := h'.newProfile id hid (h.newProfile id hid hn)

theorem mono (h : Advance held w w') (hs : held' ⊆ held) : Advance held' w w' where
  profiles := h.profiles
  events := h.events
  index := h.index
  static := h.static
  newEvent k hk := h.newEvent k (hs hk)
  newProfile id hid := h.newProfile id (hs hid)

end Advance

/-! ## Effects -/

/-- A change to what the document of `user` is made of; new rows have reserved their keys. -/
structure Within (held : Set LockName) (user : UserId) (d d' : Db) : Prop where
  others : ∀ v, v ≠ user → d'.profile? v = d.profile? v
  sources : ∀ v p, v ≠ user → d.profile? v = some p → d'.sources p = d.sources p
  ids : ∀ p ∈ d'.profiles, (∃ q ∈ d.profiles, q.id = p.id ∧ q.user = p.user) ∨
    (p.user = user ∧ .profileId p.id ∈ held ∧ ∀ q ∈ d.profiles, q.id ≠ p.id)
  users : (d'.profiles.map (·.user)).Nodup
  static : Static d.agreements d'.agreements

/-- The profile has a new version, which an event announces. -/
structure Announced (held : Set LockName) (user : UserId) (d d' : Db) (x : OutboxEvent)
    (p' : FreelancerProfile) : Prop where
  outbox : d'.outbox = x :: d.outbox
  reserved : .event x.id ∈ held
  fresh : d.event? x.id = none
  event : x.user = user ∧ x.publishedAt = none
  profile : d'.profile? user = some p'
  version : x.projectionVersion = p'.projectionVersion
  newer : ∀ p, d.profile? user = some p → p'.id = p.id ∧ p.projectionVersion < p'.projectionVersion

/-- There is no profile whose document could change. -/
structure Absent (user : UserId) (d d' : Db) : Prop where
  outbox : d'.outbox = d.outbox
  none : d.profile? user = none
  none' : d'.profile? user = Option.none

inductive Effect (held : Set LockName) : CommitPoint → Db → Db → Index → Prop
  | touched {user : UserId} {loaded : Option Nat} {d d' : Db} {e : Index}
      (hw : Within held user d d')
      (ht : (∃ x p', Announced held user d d' x p') ∨ Absent user d d') :
      Effect held (.touched user loaded) d d' e
  | drained {d : Db} {e : Index} (outbox : List OutboxEvent)
      (h : ∀ k, Table.get OutboxEvent.id k outbox = d.event? k ∨ ∃ x at', d.event? k = some x ∧
        Table.get OutboxEvent.id k outbox = some { x with publishedAt := some at' } ∧
          Reflected e x) : Effect held .drained d { d with outbox := outbox } e

/-- What is asked, and what the index answers. -/
def Asks (cfg : Settings) (q : Request) (a : Answer) (d : Db) (e e' : Index) : Prop :=
  Elastic q a e e' ∧ ∀ user version document, q = .index user version document →
    Fits cfg d user version document

section
variable {cfg : Settings} {held held' : Set LockName} {c : CommitPoint} {d d' : Db} {e e' : Index}
  {q : Request} {a : Answer} {user : UserId} {x : OutboxEvent} {p' : FreelancerProfile}

theorem Announced.event? (h : Announced held user d d' x p') (k : EventId) :
    d'.event? k = if x.id = k then some x else d.event? k := by
  rw [Db.event?, h.outbox]
  exact Table.get_cons

theorem Announced.event?_of (h : Announced held user d d' x p') {k : EventId} {y : OutboxEvent}
    (hy : d.event? k = some y) : d'.event? k = some y := by
  rw [h.event?, if_neg]
  · exact hy
  · intro hk
    rw [← hk, h.fresh] at hy
    cases hy

/-- What an index request changes: one entry, for a version that is not lower. -/
theorem Elastic.cases (h : Elastic q a e e') : e' = e ∨ ∃ user version document,
    q = .index user version document ∧ e.accepts user version = true ∧
      e' = e.put user ⟨version, document⟩ := by
  cases q with
  | ensureFreelancerIndex => exact .inl h
  | index user version document =>
    cases a with
    | done => exact .inr ⟨user, version, document, rfl, h⟩
    | versionConflict => exact .inl h.2
    | failed =>
      rcases h with h | h
      · exact .inl h
      · exact .inr ⟨user, version, document, rfl, h⟩

theorem Index.le_of_accepts {version : Nat} {y : Entry} (h : e.accepts user version = true)
    (hy : e user = some y) : y.version ≤ version := by
  simpa [Index.accepts, hy] using h

/-! ## The design -/

theorem Effect.advance (h : Effect held' c d d' e) (hd : Disjoint held held') :
    Advance held (d, e) (d', e) := by
  have hne : ∀ {l l' : LockName}, l ∈ held → l' ∈ held' → l ≠ l' := by
    intro l l' hl hl' he
    exact Set.disjoint_left.1 hd hl (he ▸ hl')
  cases h with
  | @touched user _ _ _ _ hw ht =>
    have hout : ∀ k y, d.event? k = some y → d'.event? k = some y := by
      intro k y hy
      rcases ht with ⟨x, p', ha⟩ | ha
      · exact ha.event?_of hy
      · rw [Db.event?, ha.outbox]
        exact hy
    refine ⟨fun v p hp => ?_, fun k y hy => ⟨y, hout k y hy, rfl, rfl⟩,
      fun _ y hy => ⟨y, hy, Nat.le_refl _⟩, hw.static, fun k hk hn => ?_, fun id hid hn p hp => ?_⟩
    · by_cases hv : v = user
      · subst hv
        rcases ht with ⟨x, p', ha⟩ | ha
        · obtain ⟨hid, hlt⟩ := ha.newer p hp
          exact ⟨p', ha.profile, hid, Nat.le_of_lt hlt, fun he => by omega⟩
        · rw [ha.none] at hp
          cases hp
      · exact ⟨p, (hw.others v hv).trans hp, rfl, Nat.le_refl _, fun _ =>
          ⟨rfl, hw.sources v p hv hp⟩⟩
    · rcases ht with ⟨x, p', ha⟩ | ha
      · rw [ha.event?, if_neg]
        · exact hn
        · intro hx
          exact hne hk ha.reserved (by rw [hx])
      · show d'.event? k = none
        rw [Db.event?, ha.outbox]
        exact hn
    · rcases hw.ids p hp with ⟨q, hq, hqid, -⟩ | ⟨-, hres, -⟩
      · exact hqid ▸ hn q hq
      · intro he
        exact hne hid hres (by rw [he])
  | drained outbox h =>
    refine ⟨fun v p hp => ⟨p, hp, rfl, Nat.le_refl _, fun _ => ⟨rfl, rfl⟩⟩, fun k y hy => ?_,
      fun _ y hy => ⟨y, hy, Nat.le_refl _⟩, ⟨rfl, rfl, rfl⟩, fun k _ hn => ?_, fun _ _ hn => hn⟩
    · rcases h k with hk | ⟨x, at', hx, hk, -⟩
      · exact ⟨y, hk.trans hy, rfl, rfl⟩
      · rw [hx] at hy
        cases hy
        exact ⟨_, hk, rfl, rfl⟩
    · rcases h k with hk | ⟨x, at', hx, -, -⟩
      · exact hk.trans hn
      · rw [hx] at hn
        cases hn

theorem Asks.advance (h : Asks cfg q a d e e') : Advance held (d, e) (d, e') := by
  refine { Advance.refl held (d, e) with index := fun u x hx => ?_ }
  rcases h.1.cases with rfl | ⟨user, version, document, -, hacc, rfl⟩
  · exact ⟨x, hx, Nat.le_refl _⟩
  · by_cases hu : u = user
    · subst hu
      exact ⟨⟨version, document⟩, by simp [Index.put], Index.le_of_accepts hacc hx⟩
    · exact ⟨x, by simpa [Index.put, hu] using hx, Nat.le_refl _⟩

theorem Effect.keeps (hi : Inv cfg d e) (h : Effect held c d d' e) : Inv cfg d' e := by
  have hadv : Advance ∅ (d, e) (d', e) := h.advance (Set.empty_disjoint _)
  cases h with
  | @touched user _ _ _ _ hw ht =>
    have hprofiles : ∀ u p, d.profile? u = some p → ∃ p', d'.profile? u = some p' ∧
        p.projectionVersion ≤ p'.projectionVersion ∧
        (p'.projectionVersion = p.projectionVersion → p' = p ∧ d'.sources p = d.sources p) := by
      intro u p hp
      obtain ⟨p', hp', hn⟩ := hadv.profiles u p hp
      exact ⟨p', hp', hn.le, hn.same⟩
    refine ⟨fun p hp q hq hid => ?_, hw.users, hw.static.matched hi.matched, fun u p' hp' => ?_,
      fun k x hx => ?_, fun u y hy => ?_, fun k x hx hpub => ?_⟩
    · rcases hw.ids p hp with ⟨p₀, hp₀, h1, h2⟩ | ⟨hpu, -, hpn⟩
      · rcases hw.ids q hq with ⟨q₀, hq₀, k1, k2⟩ | ⟨-, -, hqn⟩
        · exact (h2.symm.trans (hi.ids p₀ hp₀ q₀ hq₀ (by rw [h1, k1, hid]))).trans k2
        · exact absurd (h1.trans hid) (hqn p₀ hp₀)
      · rcases hw.ids q hq with ⟨q₀, hq₀, k1, k2⟩ | ⟨hqu, -, -⟩
        · exact absurd (k1.trans hid.symm) (hpn q₀ hq₀)
        · rw [hpu, hqu]
    · rcases ht with ⟨x, p₁, ha⟩ | ha
      · by_cases hu : u = user
        · subst hu
          rw [ha.profile] at hp'
          cases hp'
          exact ⟨x.id, x, by simp [ha.event?], ha.event.1, ha.version⟩
        · rw [hw.others u hu] at hp'
          obtain ⟨k, y, hy, hyu, hyv⟩ := hi.announced u p' hp'
          exact ⟨k, y, ha.event?_of hy, hyu, hyv⟩
      · have hu : u ≠ user := by
          rintro rfl
          rw [ha.none'] at hp'
          cases hp'
        rw [hw.others u hu] at hp'
        obtain ⟨k, y, hy, hyu, hyv⟩ := hi.announced u p' hp'
        exact ⟨k, y, by rw [Db.event?, ha.outbox]; exact hy, hyu, hyv⟩
    · have hold : d.event? k = some x →
          ∃ p, d'.profile? x.user = some p ∧ x.projectionVersion ≤ p.projectionVersion := by
        intro hx
        obtain ⟨p, hp, hle⟩ := hi.behind k x hx
        obtain ⟨p', hp', hle', -⟩ := hprofiles _ p hp
        exact ⟨p', hp', hle.trans hle'⟩
      rcases ht with ⟨y, p₁, ha⟩ | ha
      · rw [ha.event?] at hx
        split at hx
        · cases hx
          exact ⟨p₁, ha.event.1 ▸ ha.profile, Nat.le_of_eq ha.version⟩
        · exact hold hx
      · rw [Db.event?, ha.outbox] at hx
        exact hold hx
    · obtain ⟨p, hp, hle, hdoc⟩ := hi.indexed u y hy
      obtain ⟨p', hp', hle', hsame⟩ := hprofiles u p hp
      refine ⟨p', hp', hle.trans hle', fun he => ?_⟩
      obtain ⟨rfl, hs⟩ := hsame (by omega)
      rw [hdoc he, Db.document, Db.document, hs]
    · rcases ht with ⟨y, p₁, ha⟩ | ha
      · rw [ha.event?] at hx
        split at hx
        · cases hx
          rw [ha.event.2] at hpub
          cases hpub
        · exact hi.published k x hx hpub
      · rw [Db.event?, ha.outbox] at hx
        exact hi.published k x hx hpub
  | drained outbox h =>
    refine ⟨hi.ids, hi.users, hi.matched, fun u p hp => ?_, fun k x hx => ?_, hi.indexed,
      fun k x hx hpub => ?_⟩
    · obtain ⟨k, x, hx, hu, hv⟩ := hi.announced u p hp
      rcases h k with hk | ⟨y, at', hy, hk, -⟩
      · exact ⟨k, x, hk.trans hx, hu, hv⟩
      · rw [hx] at hy
        cases hy
        exact ⟨k, _, hk, hu, hv⟩
    · rcases h k with hk | ⟨y, at', hy, hk, -⟩
      · exact hi.behind k x (hk.symm.trans hx)
      · obtain rfl := Option.some.inj (hk.symm.trans hx)
        exact hi.behind k y hy
    · rcases h k with hk | ⟨y, at', hy, hk, hr⟩
      · exact hi.published k x (hk.symm.trans hx) hpub
      · obtain rfl := Option.some.inj (hk.symm.trans hx)
        exact hr

theorem Asks.keeps (hi : Inv cfg d e) (h : Asks cfg q a d e e') : Inv cfg d e' := by
  refine { hi with indexed := fun u y hy => ?_, published := fun k x hx hpub => ?_ }
  · rcases h.1.cases with rfl | ⟨user, version, document, rfl, -, rfl⟩
    · exact hi.indexed u y hy
    · by_cases hu : u = user
      · subst hu
        simp only [Index.put, Function.update_self, Option.some.injEq] at hy
        subst hy
        exact h.2 _ _ _ rfl
      · simp only [Index.put, Function.update_of_ne hu] at hy
        exact hi.indexed u y hy
  · obtain ⟨y, hy, hle⟩ := hi.published k x hx hpub
    have hadv : Advance ∅ (d, e) (d, e') := h.advance
    obtain ⟨y', hy', hle'⟩ := hadv.index _ y hy
    exact ⟨y', hy', hle.trans hle'⟩

end

def projection (cfg : Settings) : Design Db LockName CommitPoint Request Answer Index where
  Inv := Inv cfg
  Effect := Effect
  Asks := Asks cfg
  Frame _ _ _ := True
  refl _ _ := trivial
  trans _ _ := trivial
  mono _ _ := trivial
  frame _ _ _ := trivial
  keeps hi h := h.keeps hi
  asks hi h := h.keeps hi

theorem advances (cfg : Settings) : (projection cfg).Worlds Advance where
  refl := Advance.refl
  trans := Advance.trans
  commit _ h hd := Effect.advance h hd
  call _ h := Asks.advance h

end Search
