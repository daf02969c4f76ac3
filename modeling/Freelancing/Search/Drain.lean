import Freelancing.Search.Projection

/-!
# The drain keeps the index right

A drain publishes an event only after it has indexed a document of the event's freelancer under a
version that the event does not exceed (`wp_drainEvents`), however many others drain or change the
profiles meanwhile. The document that it assembles from several statements is the profile's, or its
version is behind.
-/

namespace Search

open Money (UserId Err)
open Txn (Point Mode Move Design View Law)

section
variable {cfg : Settings} {d d' : Db} {e : Index} {held held' : Set LockName} {w w' : Db × Index}
  {mode : Mode} {ok : Move Db (Point CommitPoint) Request Answer Index → Prop}
  {i now : Nat} {b : Bool}

/-! ## What a drain knows -/

/-- The event is there. -/
def Seen (d : Db) (x : OutboxEvent) : Prop :=
  ∃ x', d.event? x.id = some x' ∧ x'.user = x.user ∧ x'.projectionVersion = x.projectionVersion

/-- What the event `k` announces, is in the index. -/
def Done (w : Db × Index) (k : EventId) : Prop := ∃ x, w.1.event? k = some x ∧ Reflected w.2 x

/-- A profile that was loaded after the events were selected. -/
structure Usable (events : List OutboxEvent) (d : Db) (x : FreelancerProfile × List CodePoints) :
    Prop where
  row : ∃ p', d.profile? x.1.user = some p' ∧ x.1.projectionVersion ≤ p'.projectionVersion ∧
    (p'.projectionVersion = x.1.projectionVersion → p' = x.1 ∧ x.2 = d.skillsOf x.1.id)
  covers : ∀ y ∈ events, y.user = x.1.user → y.projectionVersion ≤ x.1.projectionVersion

theorem Seen.advance {x : OutboxEvent} (h : Seen w.1 x) (hw : Advance held w w') : Seen w'.1 x := by
  obtain ⟨x', hx', hu, hv⟩ := h
  obtain ⟨x'', hx'', hu', hv'⟩ := hw.events _ x' hx'
  exact ⟨x'', hx'', hu'.trans hu, hv'.trans hv⟩

theorem Done.advance {k : EventId} (h : Done w k) (hw : Advance held w w') : Done w' k := by
  obtain ⟨x, hx, y, hy, hle⟩ := h
  obtain ⟨x', hx', hu, hv⟩ := hw.events k x hx
  obtain ⟨y', hy', hle'⟩ := hw.index _ y hy
  exact ⟨x', hx', y', by rw [hu]; exact hy', by rw [hv]; exact hle.trans hle'⟩

theorem Usable.advance {events : List OutboxEvent} {x : FreelancerProfile × List CodePoints}
    (h : Usable events w.1 x) (hw : Advance held w w') : Usable events w'.1 x := by
  obtain ⟨p, hp, hle, hsame⟩ := h.row
  obtain ⟨p', hp', hn⟩ := hw.profiles _ p hp
  refine ⟨⟨p', hp', hle.trans hn.le, fun he => ?_⟩, h.covers⟩
  have hle' := hn.le
  obtain ⟨rfl, hskills⟩ := hsame (by omega)
  obtain ⟨rfl, hs⟩ := hn.same he
  exact ⟨rfl, hskills.trans (congrArg Sources.skills hs).symm⟩

theorem Usable.tail {x : OutboxEvent} {events : List OutboxEvent}
    {y : FreelancerProfile × List CodePoints} (h : Usable (x :: events) d y) : Usable events d y :=
  ⟨h.row, fun z hz => h.covers z (List.mem_cons_of_mem x hz)⟩

/-- What was read of a profile's sources since it was loaded, if it is still at its version. -/
theorem Usable.sources {events : List OutboxEvent} {x : FreelancerProfile × List CodePoints}
    (h : Usable events w.1 x) (hw : Advance held w w') {p' : FreelancerProfile}
    (hp' : w'.1.profile? x.1.user = some p')
    (he : p'.projectionVersion = x.1.projectionVersion) : w'.1.sources x.1 = w.1.sources x.1 := by
  obtain ⟨p, hp, hle, hsame⟩ := h.row
  obtain ⟨q, hq, hn⟩ := hw.profiles _ p hp
  rw [hp'] at hq
  cases hq
  have hle' := hn.le
  obtain ⟨rfl, -⟩ := hsame (by omega)
  exact (hn.same he).2

/-! ## Published rows -/

/-- The database with the events `ids` published. -/
def publishAll (now : Nat) : List EventId → Db → Db
  | [], d => d
  | k :: ids, d => (publishAll now ids d).publish k now

theorem publishAll_nil : publishAll now [] = id := rfl

theorem publish_comp (k : EventId) (ids : List EventId) :
    Db.publish k now ∘ publishAll now ids = publishAll now (k :: ids) := rfl

theorem publishAll_eq (ids : List EventId) (d : Db) :
    publishAll now ids d = { d with outbox := (publishAll now ids d).outbox } := by
  induction ids with
  | nil => rfl
  | cons k ids ih =>
    rw [publishAll, Db.publish, ih]

theorem event?_publishAll (ids : List EventId) (d : Db) (k : EventId) :
    (publishAll now ids d).event? k =
      (d.event? k).map fun x => if k ∈ ids then { x with publishedAt := some now } else x := by
  induction ids with
  | nil => simp [publishAll]
  | cons k' ids ih =>
    rw [publishAll, Db.event?_publish, ih]
    cases d.event? k with
    | none => rfl
    | some x =>
      by_cases hk : k = k'
      · subst hk
        by_cases hm : k ∈ ids <;> simp [hm]
      · by_cases hm : k ∈ ids <;> simp [hk, hm]

@[simp] theorem profile?_publishAll (ids : List EventId) (d : Db) (u : UserId) :
    (publishAll now ids d).profile? u = d.profile? u := by rw [publishAll_eq]; rfl

@[simp] theorem skillsOf_publishAll (ids : List EventId) (d : Db) (p : ProfileId) :
    (publishAll now ids d).skillsOf p = d.skillsOf p := by rw [publishAll_eq]; rfl

@[simp] theorem ratingsOf_publishAll (ids : List EventId) (d : Db) (u : UserId) :
    (publishAll now ids d).ratingsOf u = d.ratingsOf u := by rw [publishAll_eq]; rfl

@[simp] theorem completedJobs_publishAll (ids : List EventId) (d : Db) (u : UserId) :
    (publishAll now ids d).completedJobs u = d.completedJobs u := by rw [publishAll_eq]; rfl

@[simp] theorem itemsOf_publishAll (ids : List EventId) (d : Db) (p : ProfileId) :
    (publishAll now ids d).itemsOf p = d.itemsOf p := by rw [publishAll_eq]; rfl

theorem drained_effect {ids : List EventId} (h : ∀ k ∈ ids, Done (d, e) k) :
    Effect held .drained d (publishAll now ids d) e := by
  rw [publishAll_eq]
  refine .drained _ fun k => ?_
  have hk : (publishAll now ids d).event? k = _ := event?_publishAll ids d k
  unfold Db.event? at hk ⊢
  by_cases hm : k ∈ ids
  · obtain ⟨x, hx, hr⟩ := h k hm
    unfold Db.event? at hx
    rw [hk, hx]
    exact .inr ⟨x, now, rfl, by simp [hm], hr⟩
  · refine .inl ?_
    rw [hk]
    simp [hm]

/-! ## Statements -/

/-- The drain's statements run with some events published and, of the locks, no matter which. -/
theorem wp_loadProfile {kept : Bool} {loaded : Loaded} {ids : List EventId} {x : OutboxEvent}
    {events : List OutboxEvent} {Q : View Db LockName Index →
      Option (FreelancerProfile × List CodePoints) → Prop}
    (hseen : ∀ y ∈ x :: events, Seen w.1 y)
    (hloaded : ∀ y ∈ loaded, Usable (x :: events) w.1 y)
    (h : ∀ w' y, Advance held w w' → Usable (x :: events) w'.1 y → y.1.user = x.user →
      Q ⟨held, publishAll now ids, mode.inTxn, w'⟩ (some y)) :
    ((projection cfg).law mode ok).wp i (loadProfile kept loaded x.user)
      ⟨held, publishAll now ids, b, w⟩ Q := by
  refine Law.wp_bind ((advances cfg).wp_select fun w₁ h₁ => ?_)
  rw [profile?_publishAll]
  have hv : ∀ y ∈ x :: events, ∃ p, w₁.1.profile? y.user = some p ∧
      y.projectionVersion ≤ p.projectionVersion := by
    intro y hy
    obtain ⟨y', hy', hu, hv⟩ := (hseen y hy).advance h₁.frame
    obtain ⟨p, hp, hle⟩ := Inv.behind h₁.inv _ y' hy'
    exact ⟨p, by rwa [hu] at hp, by omega⟩
  obtain ⟨p, hp, -⟩ := hv x (List.mem_cons_self ..)
  rw [hp]
  have hpu : p.user = x.user := Table.get_key hp
  dsimp only
  split
  · rename_i y hy
    split at hy
    · have hmem := List.mem_of_find?_eq_some hy
      exact Law.wp_pure (h w₁ y h₁.frame ((hloaded y hmem).advance h₁.frame)
        (by simpa using List.find?_some hy))
    · cases hy
  · refine Law.wp_bind ((advances cfg).wp_select fun w₂ h₂ => Law.wp_pure ?_)
    rw [skillsOf_publishAll]
    obtain ⟨p', hp', hn⟩ := h₂.frame.profiles _ p hp
    have hp' : w₂.1.profile? p.user = some p' := by rwa [hpu]
    refine h w₂ (p, w₂.1.skillsOf p.id) (h₁.frame.trans h₂.frame)
      ⟨⟨p', hp', hn.le, fun he => ⟨(hn.same he).1, rfl⟩⟩, fun y hy hyu => ?_⟩ hpu
    obtain ⟨q, hq, hle⟩ := hv y hy
    rw [hyu, hpu, hp] at hq
    cases hq
    exact hle

theorem wp_expectDone {a : Answer} {v : View Db LockName Index}
    {Q : View Db LockName Index → Unit → Prop} (h : a = .done → Q v ()) :
    ((projection cfg).law mode ok).wp i (expectDone a) v Q := by
  cases a with
  | done => exact h rfl
  | versionConflict => trivial
  | failed => trivial

/-- The runs of this development: the index answers as it does. -/
def Serves (mv : Move Db (Point CommitPoint) Request Answer Index) : Prop :=
  match mv with
  | .call _ q a e e' => Elastic q a e e'
  | _ => True

theorem wp_indexFreelancer {ids : List EventId} {events : List OutboxEvent}
    {x : FreelancerProfile × List CodePoints} {Q : View Db LockName Index → Unit → Prop}
    (hok : ∀ mv, ok mv → Serves mv) (hx : Usable events w.1 x)
    (h : ∀ w', Advance held w w' →
      (∃ y, w'.2 x.1.user = some y ∧ x.1.projectionVersion ≤ y.version) →
      Q ⟨held, publishAll now ids, mode.inTxn, w'⟩ ()) :
    ((projection cfg).law mode ok).wp i (indexFreelancer cfg x.1 x.2)
      ⟨held, publishAll now ids, b, w⟩ Q := by
  refine Law.wp_bind
    ((advances cfg).wp_ask fun w₁ a e₁ h₁ hok₁ => ⟨⟨hok _ hok₁, fun _ _ _ hq => by cases hq⟩, ?_⟩)
  refine Law.wp_bind (wp_expectDone fun _ => ?_)
  obtain rfl : e₁ = w₁.2 := hok _ hok₁
  refine Law.wp_bind ?_
  refine Law.wp_bind ((advances cfg).wp_select fun w₂ h₂ => ?_)
  refine Law.wp_bind ((advances cfg).wp_select fun w₃ h₃ => ?_)
  refine Law.wp_bind ((advances cfg).wp_select fun w₄ h₄ => Law.wp_pure ?_)
  rw [ratingsOf_publishAll, completedJobs_publishAll, itemsOf_publishAll]
  have k₂ : Advance held w w₂ := h₁.frame.trans h₂.frame
  have k₃ := k₂.trans h₃.frame
  have k₄ := k₃.trans h₄.frame
  refine Law.wp_bind ((advances cfg).wp_ask fun w₅ a e₅ h₅ hok₅ => ?_)
  have k₅ := k₄.trans h₅.frame
  let document := assembleDocument cfg x.1 x.2 (w₂.1.ratingsOf x.1.user)
    (w₃.1.completedJobs x.1.user) (w₄.1.itemsOf x.1.id)
  have hasks : Asks cfg (.index x.1.user x.1.projectionVersion document) a w₅.1 w₅.2 e₅ := by
    refine ⟨hok _ hok₅, fun user version document hq => ?_⟩
    cases hq
    obtain ⟨p, hp, hle, hsame⟩ := (hx.advance k₅).row
    refine ⟨p, hp, hle, fun he => ?_⟩
    obtain ⟨rfl, hskills⟩ := hsame he.symm
    -- the profile has stayed at its version since it was loaded, and so has all that was read
    have hs : ∀ {v : Db × Index}, Advance held w v → Advance held v w₅ →
        w₅.1.sources x.1 = v.1.sources x.1 :=
      fun hv hv' => (hx.advance hv).sources hv' hp rfl
    have h2 := congrArg Sources.ratings (hs k₂ (h₃.frame.trans (h₄.frame.trans h₅.frame)))
    have h3 := congrArg Sources.completedJobs (hs k₃ (h₄.frame.trans h₅.frame))
    have h4 := congrArg Sources.items (hs k₄ h₅.frame)
    have h1 : (w₅.1.sources x.1).skills = x.2 := hskills.symm
    unfold Db.document
    rw [h1, h2, h3, h4]
    rfl
  refine ⟨hasks, wp_expectDone fun ha => ?_⟩
  subst ha
  obtain ⟨-, hput⟩ : w₅.2.accepts x.1.user x.1.projectionVersion = true ∧
    e₅ = w₅.2.put x.1.user ⟨x.1.projectionVersion, document⟩ := hasks.1
  refine h _ (k₅.trans hasks.advance) ⟨⟨x.1.projectionVersion, document⟩, ?_, Nat.le_refl _⟩
  rw [hput]
  exact Function.update_self ..

/-! ## The drain -/

theorem wp_drainEvents {Q : View Db LockName Index → Unit → Prop} (hok : ∀ mv, ok mv → Serves mv)
    {events : List OutboxEvent} {kept : List Bool} {loaded : Loaded} {ids : List EventId}
    (hseen : ∀ x ∈ events, Seen w.1 x) (hloaded : ∀ y ∈ loaded, Usable events w.1 y)
    (hdone : ∀ k ∈ ids, Done w k)
    (h : ∀ b w' ids, (∀ k ∈ ids, Done w' k) → Q ⟨held, publishAll now ids, b, w'⟩ ()) :
    ((projection cfg).law mode ok).wp i (drainEvents cfg now kept loaded events)
      ⟨held, publishAll now ids, b, w⟩ Q := by
  induction events generalizing kept loaded ids w b with
  | nil => exact h b w ids hdone
  | cons x rest ih =>
    refine Law.wp_bind (wp_loadProfile hseen hloaded fun w₁ y h₁ hy hyu => ?_)
    refine Law.wp_bind (wp_indexFreelancer hok hy fun w₂ h₂ hindex => ?_)
    refine Law.wp_bind (Design.wp_write ?_)
    rw [publish_comp]
    have h₁₂ := h₁.trans h₂
    have hy₂ := hy.advance h₂
    refine ih (fun z hz => (hseen z (List.mem_cons_of_mem x hz)).advance h₁₂) (fun z hz => ?_)
      (fun k hk => ?_)
    · rcases List.mem_cons.1 hz with rfl | hz
      · exact hy₂.tail
      · exact ((hloaded z hz).advance h₁₂).tail
    · rcases List.mem_cons.1 hk with rfl | hk
      · obtain ⟨x', hx', hu, hv⟩ := (hseen x (List.mem_cons_self ..)).advance h₁₂
        obtain ⟨z, hz, hle⟩ := hindex
        have hcover := hy.covers x (List.mem_cons_self ..) hyu.symm
        exact ⟨x', hx', z, by rw [hu, ← hyu]; exact hz, by omega⟩
      · exact (hdone k hk).advance h₁₂

theorem wp_lockEvents {Q : View Db LockName Index → List OutboxEvent → Prop}
    {events : List OutboxEvent}
    (h : ∀ held' b w' l, Advance held w w' → (∀ x ∈ l, Seen w'.1 x) → Q ⟨held', id, b, w'⟩ l) :
    ((projection cfg).law mode ok).wp i (lockEvents events) ⟨held, id, b, w⟩ Q := by
  induction events generalizing held b w Q with
  | nil => exact h held b w [] (.refl _ _) (by simp)
  | cons event rest ih =>
    refine Law.wp_bind ((advances cfg).wp_selectForUpdate (fun w₁ h₁ _ => ?_) fun w₁ x h₁ hx => ?_)
    · exact ih fun held' b w' l hw hl => h held' b w' l (h₁.frame.trans hw) hl
    · refine Law.wp_bind (ih fun held' b w' l hw hl => Law.wp_pure ?_)
      have hw := hw.mono (Set.subset_insert (.event x.id) held)
      refine h held' b w' _ (h₁.frame.trans hw) fun y hy => ?_
      split at hy
      · rcases List.mem_cons.1 hy with rfl | hy
        · have hyk : y.id = event.id := Table.get_key hx
          have hy₁ : Seen w₁.1 y := ⟨y, by rw [hyk]; exact hx, rfl, rfl⟩
          exact Seen.advance hy₁ hw
        · exact hl y hy
      · exact hl y hy

theorem drain_keeps (hok : ∀ mv, ok mv → Serves mv) {limit : Nat} {skipped : List EventId}
    {kept : List Bool} :
    ((projection cfg).law mode ok).wp i (drainSearchOutbox cfg limit skipped kept now)
      ⟨held, id, b, w⟩ fun _ _ => True := by
  refine Law.wp_bind ((advances cfg).wp_select fun w₁ h₁ => ?_)
  refine Law.wp_bind (wp_lockEvents fun held b w₂ l _ hl => ?_)
  rw [← publishAll_nil]
  refine Law.wp_bind (wp_drainEvents hok hl (by simp) (by simp) fun b w₃ ids hdone => ?_)
  refine Law.wp_bind ((advances cfg).wp_commit fun w₄ h₄ _ => ⟨?_, fun _ => trivial⟩)
  exact drained_effect fun k hk => (hdone k hk).advance h₄.frame

end

end Search
