import Freelancing.Realtime.Authority

/-!
# Presence

The key of a user's presence holds the sockets that have given a sign. It has a time to live of at
most 75 seconds, unless a handler is about to give it one or has failed before it did
(`presence_fades`), and it is there until then when no socket of the user leaves (`presence_lasts`).
-/

namespace Realtime

open Money (UserId Err)
open Identity (Settings Db)
open Txn (Mode Sys Prog)

section
variable {cfg : Settings} {services : Nat → Service} {t : Nat → Stage} {e e' : Store} {i : Nat}
  {q : Command} {a : Answer} {user : UserId}

structure Signed (t : Nat → Stage) (e : Store) : Prop where
  owed : ∀ user c, e.cell (.presence user) = some c → c.deadline = none →
    ∃ i, (t i).owes = some user
  soon : ∀ user c at', e.cell (.presence user) = some c → c.deadline = some at' →
    at' ≤ e.now + 1000 * presenceTtlSeconds

/-- What a command that its handler may ask does to a presence key. -/
theorem exec_presence {x : Service} {s : Stage} (hq : x.Asks cfg s q) {c : Redis.Cell Principal}
    (hc : (Redis.exec q e).1.cell (.presence user) = some c) :
    (∃ c', e.cell (.presence user) = some c' ∧ c.deadline = c'.deadline ∧
        (q = .expire (.presence user) presenceTtlSeconds → c.deadline ≠ none)) ∨
      (c.deadline = none ∧ ∃ sid, q = .sadd (.presence user) sid) ∨
      (q = .expire (.presence user) presenceTtlSeconds ∧
        c.deadline = some (e.now + 1000 * presenceTtlSeconds)) := by
  by_cases hk : Key.presence user = q.key
  · cases hq with
    | bind | identify => cases hk
    | @sign user' sid ho =>
      cases hk
      simp only [Redis.exec] at hc
      split at hc
      · simp only [Redis.put_cell, if_true, Option.some.injEq] at hc
        exact .inr (.inl ⟨by rw [← hc], sid, rfl⟩)
      · rename_i l at' hg
        have hcell := (Redis.get_eq_some.1 hg).1
        split at hc
        · exact .inl ⟨c, hc, rfl, fun he => by cases he⟩
        · simp only [Redis.put_cell, if_true, Option.some.injEq] at hc
          exact .inl ⟨_, hcell, by rw [← hc], fun he => by cases he⟩
      · exact .inl ⟨c, hc, rfl, fun he => by cases he⟩
    | @expire user' ho =>
      cases hk
      simp only [Redis.exec] at hc
      split at hc
      · rename_i hg
        refine .inl ⟨c, hc, rfl, fun _ hd => ?_⟩
        have : e.get (.presence user) = some c :=
          Redis.get_eq_some.2 ⟨hc, fun at' ha => by rw [hd] at ha; cases ha⟩
        rw [hg] at this
        cases this
      · simp only [Redis.put_cell, if_true, Option.some.injEq] at hc
        exact .inr (.inr ⟨rfl, by rw [← hc]⟩)
    | forget =>
      cases hk
      simp [Redis.exec] at hc
    | leave =>
      cases hk
      simp only [Redis.exec] at hc
      split at hc
      · exact .inl ⟨c, hc, rfl, fun he => by cases he⟩
      · rename_i l at' hg
        have hcell := (Redis.get_eq_some.1 hg).1
        split at hc
        · simp only [Redis.put_cell, if_true, Redis.remaining] at hc
          split at hc
          · cases hc
          · cases hc
            exact .inl ⟨_, hcell, rfl, fun he => by cases he⟩
        · exact .inl ⟨c, hc, rfl, fun he => by cases he⟩
      · exact .inl ⟨c, hc, rfl, fun he => by cases he⟩
    | count =>
      simp only [Redis.exec] at hc
      split at hc <;> exact .inl ⟨c, hc, rfl, fun he => by cases he⟩
    | look => exact .inl ⟨c, hc, rfl, fun he => by cases he⟩
  · rw [Redis.exec_cell_ne hk] at hc
    exact .inl ⟨c, hc, rfl, fun he => absurd (by rw [he]; rfl) hk⟩

/-- No command takes the key away but the two that a leaving socket asks. -/
theorem exec_stays {x : Service} {s : Stage} (hq : x.Asks cfg s q) {c : Redis.Cell Principal}
    (hc : e.cell (.presence user) = some c) (hd : q ≠ .delete (.presence user))
    (hr : ∀ sid, q ≠ .srem (.presence user) sid) :
    ∃ c', (Redis.exec q e).1.cell (.presence user) = some c' := by
  by_cases hk : Key.presence user = q.key
  · cases hq with
    | bind | identify => cases hk
    | sign =>
      cases hk
      simp only [Redis.exec]
      split
      · exact ⟨_, Redis.put_cell_self⟩
      · split
        · exact ⟨c, hc⟩
        · exact ⟨_, Redis.put_cell_self⟩
      · exact ⟨c, hc⟩
    | expire =>
      cases hk
      simp only [Redis.exec]
      split
      · exact ⟨c, hc⟩
      · exact ⟨_, Redis.put_cell_self⟩
    | forget =>
      cases hk
      exact absurd rfl hd
    | leave =>
      cases hk
      exact absurd rfl (hr _)
    | count =>
      simp only [Redis.exec]
      split <;> exact ⟨c, hc⟩
    | look => exact ⟨c, hc⟩
  · rw [Redis.exec_cell_ne hk]
    exact ⟨c, hc⟩

theorem Service.Asks.owes {x : Service} {s : Stage} (hq : x.Asks cfg s q)
    (ho : s.owes = some user) : q = .expire (.presence user) presenceTtlSeconds := by
  cases hq with
  | expire h =>
    rw [h] at ho
    cases ho
    rfl
  | bind h | identify h | sign h | forget h | leave h | count h | look h =>
    rw [h] at ho
    cases ho

theorem Signed.step (h : Signed t e) (hq : (services i).Asks cfg (t i) q)
    (ha : ∃ ms, (e', a) = Redis.exec q (e.wait ms)) :
    Signed (Function.update t i ((t i).next q a)) e' := by
  obtain ⟨ms, ha⟩ := ha
  obtain ⟨rfl, rfl⟩ : e' = (Redis.exec q (e.wait ms)).1 ∧ a = (Redis.exec q (e.wait ms)).2 := by
    rw [← ha]
    exact ⟨rfl, rfl⟩
  constructor
  · intro user c hc hd
    rcases exec_presence hq hc with ⟨c', hc', he, hne⟩ | ⟨-, sid, rfl⟩ | ⟨-, hdl⟩
    · obtain ⟨k, hk⟩ := h.owed user c' hc' (he ▸ hd)
      refine ⟨k, ?_⟩
      by_cases hki : k = i
      · subst hki
        exact absurd hd (hne (hq.owes hk))
      · rwa [Function.update_of_ne hki]
    · exact ⟨i, by rw [Function.update_self]; rfl⟩
    · rw [hd] at hdl
      cases hdl
  · intro user c at' hc hd
    rw [Redis.exec_now, Redis.wait_now]
    rcases exec_presence hq hc with ⟨c', hc', he, -⟩ | ⟨hn, -⟩ | ⟨-, hdl⟩
    · have := h.soon user c' at' hc' (he ▸ hd)
      omega
    · rw [hd] at hn
      cases hn
    · obtain rfl := Option.some.inj (hd.symm.trans hdl)
      rw [Redis.wait_now]

end

/-! ## Runs -/

/-- No command of the move gives the user's presence a sign. -/
def Silent (user : UserId) : Move → Prop
  | .call _ q _ _ _ => (∀ sid, q ≠ .sadd (.presence user) sid) ∧ ∀ n, q ≠ .expire (.presence user) n
  | _ => True

/-- No command of the move takes a socket out of the user's presence. -/
def Stays (user : UserId) : Move → Prop
  | .call _ q _ _ _ => q ≠ .delete (.presence user) ∧ ∀ sid, q ≠ .srem (.presence user) sid
  | _ => True

/-- Session `i` has written the presence key and owes it a time to live: this is the next thing it
does, or it has failed. -/
structure Owes (s₀ s : Server) (mode : Mode) (user : UserId) (i : Nat) : Prop where
  signed : ∃ sid a e e',
    Sys.Makes mode redisAnswers s₀ s (.call i (.sadd (.presence user) sid) a e e')
  unpaid : (∃ next, (s.sess i).prog = .call (.expire (.presence user) presenceTtlSeconds) next) ∨
    ∃ e, s.Ended i (.error e)

section
variable {cfg : Settings} {mode : Mode} {d : Db} {now : Nat} {services : Nat → Service}
  {s s' : Server} {user : UserId}

theorem signed_of_run (hr : Sys.Run mode redisAnswers (server cfg d (.empty now) services) s) :
    ∃ t, (∀ i, (s.sess i).prog.Talks ((services i).manner cfg) (services i).Answers (t i)) ∧
      Signed t s.env ∧ ∀ i, t i = Stage.start ∨ ∃ q, Sys.Asked mode redisAnswers
        (server cfg d (.empty now) services) s i ((services i).manner cfg) (t i) q :=
  Sys.talks_of_run (fun i => (services i).talks)
    ⟨fun user c hc => (by cases hc), fun user c at' hc => (by cases hc)⟩
    (fun t i q a e e' hok hq hs => hs.step hq hok) hr

/-- What every command that a handler may ask keeps of the store. -/
theorem store_of_run {ok : Move → Prop} {P : Store → Prop} (hok : ∀ mv, ok mv → redisAnswers mv)
    (hr : Sys.Run mode redisAnswers (server cfg d (.empty now) services) s)
    (hr' : Sys.Run mode ok s s')
    (h : ∀ i q a e e' ms x t, ok (.call i q a e e') → Service.Asks cfg x t q → P e →
      P (Redis.exec q (e.wait ms)).1)
    (hP : P s.env) : P s'.env := by
  obtain ⟨t, htalk, -, -⟩ := signed_of_run hr
  obtain ⟨-, -, hP', -⟩ :=
      Sys.talks_of_run (I := fun _ e => P e) htalk hP (fun t i q a e e' hmv hq hPe => by
    obtain ⟨ms, ha⟩ := hok _ hmv
    rw [show e' = (Redis.exec q (e.wait ms)).1 by rw [← ha]]
    exact h i q a e e' ms _ _ hmv hq hPe) hr'
  exact hP'

/-- The last thing that a handler in debt has asked. -/
theorem Asked.signed {s₀ : Server} {i : Nat} {x : Service} {t : Stage} {q : Command}
    (h : Sys.Asked mode redisAnswers s₀ s i (x.manner cfg) t q) (ho : t.owes = some user) :
    ∃ sid, q = .sadd (.presence user) sid := by
  obtain ⟨u, a, hq, rfl⟩ := h.next
  cases hq with
  | @sign user' sid h =>
    have : some user' = some user := ho
    exact ⟨sid, by rw [Option.some.inj this]⟩
  | expire h => cases ho
  | bind hn | identify hn | forget hn | leave hn | count hn | look hn =>
    have hu : u.owes = some user := ho
    rw [hn] at hu
    cases hu

/-- **Presence fades**: a key without a time to live is one that a handler owes it to, and a user of
whose sockets none has given a sign for more than 75 seconds is offline when the key had one
before. -/
theorem presence_fades (hr : Sys.Run mode redisAnswers (server cfg d (.empty now) services) s)
    (user : UserId) :
    (∀ c, s.env.cell (.presence user) = some c → c.deadline = none →
      ∃ i, Owes (server cfg d (.empty now) services) s mode user i) ∧
    ((∀ c, s.env.cell (.presence user) = some c → c.deadline ≠ none) → ∀ s',
      Sys.Run mode (fun mv => redisAnswers mv ∧ Silent user mv) s s' →
      s.env.now + 1000 * presenceTtlSeconds < s'.env.now → s'.env.get (.presence user) = none) := by
  obtain ⟨t, htalk, hsigned, hasked⟩ := signed_of_run hr
  refine ⟨fun c hc hd => ?_, fun hlive s' hr' hlt => ?_⟩
  · obtain ⟨i, hi⟩ := hsigned.owed user c hc hd
    refine ⟨i, ?_, ?_⟩
    · rcases hasked i with hs | ⟨q, hq⟩
      · rw [hs] at hi
        cases hi
      · obtain ⟨sid, rfl⟩ := Asked.signed hq hi
        exact ⟨sid, hq.made⟩
    · rcases (htalk i).pending (by simp [Service.manner, hi]) with ⟨q, next, hp, hq⟩ | he
      · exact .inl ⟨next, by rw [hp, Service.Asks.owes hq hi]⟩
      · exact .inr he
  · have hkeep : ∀ c, s'.env.cell (.presence user) = some c →
        ∃ dl, c.deadline = some dl ∧ dl ≤ s.env.now + 1000 * presenceTtlSeconds := by
      refine store_of_run (P := fun e => ∀ c, e.cell (.presence user) = some c →
        ∃ dl, c.deadline = some dl ∧ dl ≤ s.env.now + 1000 * presenceTtlSeconds)
        (fun _ h => h.1) hr hr' ?_ ?_
      · intro i q a e e' ms x t hok hq hP c hc
        rcases exec_presence hq hc with ⟨c', hc', he, -⟩ | ⟨-, sid, rfl⟩ | ⟨rfl, -⟩
        · rw [he]
          exact hP c' hc'
        · exact absurd rfl (hok.2.1 sid)
        · exact absurd rfl (hok.2.2 _)
      · intro c hc
        cases hd : c.deadline with
        | none => exact absurd hd (hlive c hc)
        | some dl => exact ⟨dl, rfl, hsigned.soon user c dl hc hd⟩
    refine Redis.get_none_of_deadline fun c hc => ?_
    obtain ⟨dl, hd, hle⟩ := hkeep c hc
    exact ⟨dl, hd, by omega⟩

/-- **Presence lasts**: a key is there until its time is over, whatever else happens, when none of
the user's sockets leaves. -/
theorem presence_lasts (hr : Sys.Run mode redisAnswers (server cfg d (.empty now) services) s)
    {c : Redis.Cell Principal} {dl : Nat} (hc : s.env.cell (.presence user) = some c)
    (hd : c.deadline = some dl)
    (hr' : Sys.Run mode (fun mv => redisAnswers mv ∧ Stays user mv) s s')
    (hlt : s'.env.now ≤ dl) : (s'.env.get (.presence user)).isSome = true := by
  obtain ⟨t, -, hsigned, -⟩ := signed_of_run hr
  have hsoon := hsigned.soon user c dl hc hd
  have hkeep : s.env.now ≤ s'.env.now ∧ ∃ c', s'.env.cell (.presence user) = some c' ∧
      ∀ x, c'.deadline = some x → dl ≤ x := by
    refine store_of_run (P := fun e => s.env.now ≤ e.now ∧ ∃ c', e.cell (.presence user) = some c' ∧
      ∀ x, c'.deadline = some x → dl ≤ x) (fun _ h => h.1) hr hr' ?_ ?_
    · intro i q a e e' ms x t hok hq hP
      obtain ⟨hnow, c', hc', hdl⟩ := hP
      obtain ⟨c'', hc''⟩ := exec_stays (e := e.wait ms) hq hc' hok.2.1 hok.2.2
      refine ⟨by rw [Redis.exec_now, Redis.wait_now]; omega, c'', hc'', fun x hx => ?_⟩
      rcases exec_presence hq hc'' with ⟨c₀, hc₀, he, -⟩ | ⟨hn, -⟩ | ⟨-, hx'⟩
      · obtain rfl : c₀ = c' := Option.some.inj (hc₀.symm.trans hc')
        exact hdl x (he ▸ hx)
      · rw [hn] at hx
        cases hx
      · obtain rfl := Option.some.inj (hx.symm.trans hx')
        rw [Redis.wait_now]
        omega
    · refine ⟨Nat.le_refl _, c, hc, fun x hx => ?_⟩
      rw [hd] at hx
      cases hx
      exact Nat.le_refl _
  obtain ⟨-, c', hc', hdl⟩ := hkeep
  rw [Redis.get_eq_some.2 ⟨hc', fun x hx => hlt.trans (hdl x hx)⟩]
  rfl

end

/-- Somebody asks whether the user is online, some time after the first event. -/
def askedAfter (ms : Nat) : Server :=
  let r := Redis.exec (.present (.presence 1)) (connected.env.wait ms)
  ((connected.step? .readCommitted 4 (.answer r.2 r.1)).map Prod.fst).getD connected

theorem askedAfter_step (ms : Nat) : ∃ mv, connected.step? .readCommitted 4
    (.answer (Redis.exec (.present (.presence 1)) (connected.env.wait ms)).2
      (Redis.exec (.present (.presence 1)) (connected.env.wait ms)).1) = some (askedAfter ms, mv) ∧
    redisAnswers mv ∧ Silent 1 mv ∧ Stays 1 mv :=
  ⟨_, rfl, ⟨ms, rfl⟩, by simp [Silent], by simp [Stays]⟩

theorem connected_presence :
    connected.env.cell (.presence 1) = some ⟨.members ["a"], some 75000⟩ := rfl

theorem presence_fades_asked : (askedAfter 75001).env.get (.presence 1) = none := by
  obtain ⟨mv, hs, hok, hsilent, -⟩ := askedAfter_step 75001
  refine (presence_fades connected_run 1).2 (fun c hc => ?_) _
    (.single ⟨4, _, mv, hs, hok, hsilent⟩) ?_
  · rw [connected_presence] at hc
    cases hc
    simp
  · show (0 : Nat) + 75000 < 75001
    decide

theorem presence_lasts_asked : ((askedAfter 75000).env.get (.presence 1)).isSome = true := by
  obtain ⟨mv, hs, hok, -, hstays⟩ := askedAfter_step 75000
  exact presence_lasts connected_run connected_presence rfl (.single ⟨4, _, mv, hs, hok, hstays⟩)
    (Nat.le_refl _)

end Realtime
