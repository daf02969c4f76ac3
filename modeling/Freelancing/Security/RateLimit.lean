import Freelancing.Money.Types
import Freelancing.Redis

/-!
# The rate limit

`app/security.py`: what happens before each request. A counter in Redis for every minute and remote
address is incremented and given another two minutes to live, in one `MULTI` block; the request is
refused when the counter is above the limit.
-/

namespace Security

open Money (Err)

/-- The key `rate:{window}:{remote}`, or another one. -/
inductive Key
  | rate (window : Nat) (remote : String)
  | other (name : String)
  deriving DecidableEq

abbrev Store := Redis.Store Key String

structure Config where
  corsAllowedOrigins : List String
  rateLimitEnabled : Bool
  rateLimitPerMinute : Int

structure Request where
  origin : Option String
  endpoint : Option String
  remoteAddr : Option String

def uncountedEndpoints : List String :=
  ["health.live", "health.ready", "health.startup", "metrics.metrics"]

/-- `request.remote_addr or "unknown"` -/
def Request.remote (r : Request) : String := (r.remoteAddr.filter (· ≠ "")).getD "unknown"

def Request.foreign (cfg : Config) (r : Request) : Bool :=
  r.origin.any fun o => o ≠ "" ∧ o ∉ cfg.corsAllowedOrigins

def Request.counted (cfg : Config) (r : Request) : Bool :=
  !r.foreign cfg && cfg.rateLimitEnabled && !r.endpoint.any (· ∈ uncountedEndpoints)

/-- The minute of a time in milliseconds. -/
def window (time : Nat) : Nat := time / 60000

def originNotAllowed : Err :=
  .api ⟨"origin_not_allowed", "Origin not allowed", 403, "The request Origin is not allowed"⟩

def rateLimited : Err :=
  .api ⟨"rate_limited", "Too many requests", 429, "Rate limit exceeded"⟩

/-- The clock has been read at `time`, which may be a while before Redis runs the block. -/
def enforceOriginAndRateLimit (cfg : Config) (time : Nat) (r : Request) (s : Store) :
    Store × Except Err Unit :=
  if r.foreign cfg then (s, .error originNotAllowed)
  else if !cfg.rateLimitEnabled then (s, .ok ())
  else if r.endpoint.any (· ∈ uncountedEndpoints) then (s, .ok ())
  else
    let key := Key.rate (window time) r.remote
    match Redis.execAll [.incr key, .expire key 120] s with
    | (s', [.int count, _]) =>
      (s', if count > cfg.rateLimitPerMinute then .error rateLimited else .ok ())
    | (s', _) => (s', .error (.runtime "WRONGTYPE"))

/-! ## Runs -/

inductive Event
  | wait (ms : Nat)
  | command (c : Redis.Command Key String)
  | request (time : Nat) (r : Request)

/-- A request with the time at which Redis ran its block, and whether it was let in. -/
structure Served where
  time : Nat
  request : Request
  ran : Nat
  admitted : Bool

def serve (cfg : Config) : List Event → Store → Store × List Served
  | [], s => (s, [])
  | .wait ms :: l, s => serve cfg l (s.wait ms)
  | .command c :: l, s => serve cfg l (Redis.exec c s).1
  | .request time r :: l, s =>
    let (s', verdict) := enforceOriginAndRateLimit cfg time r s
    let (s'', rest) := serve cfg l s'
    (s'', ⟨time, r, s.now, verdict.isOk⟩ :: rest)

/-- The verdicts on the requests that share one counter. -/
def verdicts (cfg : Config) (w : Nat) (remote : String) (l : List Served) : List Bool :=
  (l.filter fun x => x.request.counted cfg ∧ window x.time = w ∧ x.request.remote = remote).map
    Served.admitted

/-- No other part of the program uses the counters. -/
def Event.Foreign : Event → Prop
  | .command c => ∀ w remote, c.key ≠ .rate w remote
  | _ => True

/-- Redis runs the block within a minute of the reading of the clock. -/
abbrev Served.Timely (x : Served) : Prop := x.time ≤ x.ran ∧ x.ran ≤ x.time + 60000

section
variable {cfg : Config} {w k : Nat} {remote : String} {s : Store} {time : Nat} {r : Request}

/-- After `k` requests of the minute `w`. -/
def Counts (w : Nat) (remote : String) (k : Nat) (s : Store) : Prop :=
  if k = 0 then s.cell (.rate w remote) = none
  else ∃ t, s.cell (.rate w remote) = some ⟨.number k, some t⟩ ∧ 60000 * w + 120000 ≤ t

theorem Counts.congr {s' : Store} (h : Counts w remote k s)
    (hc : s'.cell (.rate w remote) = s.cell (.rate w remote)) : Counts w remote k s' := by
  unfold Counts at h ⊢
  rwa [hc]

/-- The block finds the counter as long as it has been let live. -/
theorem Counts.incr (h : Counts w remote k s) (hn : s.now ≤ 60000 * w + 120000) :
    Redis.execAll [.incr (.rate w remote), .expire (.rate w remote) 120] s =
      (s.put (.rate w remote) (some ⟨.number (k + 1), some (s.now + 120000)⟩),
        [.int (k + 1), .int 1]) := by
  refine Redis.execAll_incr_expire (n := k) ?_
  unfold Counts at h
  split at h
  · rename_i hk
    subst hk
    refine .inl ⟨Redis.get_none_of_deadline fun c hc => ?_, rfl⟩
    rw [h] at hc
    cases hc
  · obtain ⟨t, hc, ht⟩ := h
    refine .inr ⟨some t, Redis.get_eq_some.2 ⟨hc, fun t' ht' => ?_⟩⟩
    cases ht'
    omega

theorem enforce_uncounted (hr : r.counted cfg = false) :
    (enforceOriginAndRateLimit cfg time r s).1 = s := by
  unfold enforceOriginAndRateLimit
  split
  · rfl
  · split
    · rfl
    · split
      · rfl
      · simp_all [Request.counted]

theorem enforce_store (hr : r.counted cfg = true) : (enforceOriginAndRateLimit cfg time r s).1 =
    (Redis.execAll [.incr (.rate (window time) r.remote),
      .expire (.rate (window time) r.remote) 120]
      s).1 := by
  simp only [Request.counted, Bool.and_eq_true, Bool.not_eq_true'] at hr
  simp only [enforceOriginAndRateLimit, hr, Bool.false_eq_true, Bool.not_true, if_false]
  split <;> simp_all

/-- The counters that a request leaves alone. -/
theorem enforce_cell (h : ¬ (r.counted cfg = true ∧ window time = w ∧ r.remote = remote)) :
    (enforceOriginAndRateLimit cfg time r s).1.cell (.rate w remote) = s.cell (.rate w remote) := by
  cases hr : r.counted cfg with
  | false => rw [enforce_uncounted hr]
  | true =>
    have hne : Key.rate w remote ≠ .rate (window time) r.remote := by
      intro he
      cases he
      exact h ⟨hr, rfl, rfl⟩
    rw [enforce_store hr]
    simp only [Redis.execAll]
    rw [Redis.exec_cell_ne hne, Redis.exec_cell_ne hne]

theorem enforce_counted (hr : r.counted cfg = true) (hk : Counts (window time) r.remote k s)
    (hn : s.now ≤ 60000 * window time + 120000) :
    enforceOriginAndRateLimit cfg time r s =
      (s.put (.rate (window time) r.remote) (some ⟨.number (k + 1), some (s.now + 120000)⟩),
        if (k : Int) + 1 > cfg.rateLimitPerMinute then .error rateLimited else .ok ()) := by
  simp only [Request.counted, Bool.and_eq_true, Bool.not_eq_true'] at hr
  simp [enforceOriginAndRateLimit, hr, hk.incr hn]

theorem verdicts_serve {l : List Event} (hk : Counts w remote k s) (hf : ∀ e ∈ l, e.Foreign)
    (ht : ∀ x ∈ (serve cfg l s).2, x.Timely) :
    verdicts cfg w remote (serve cfg l s).2 =
      (List.range' k (verdicts cfg w remote (serve cfg l s).2).length).map
        fun j : Nat => decide ((j : Int) + 1 ≤ cfg.rateLimitPerMinute) := by
  induction l generalizing s k with
  | nil => rfl
  | cons e l ih =>
    have hf' : ∀ e ∈ l, e.Foreign := fun e he => hf e (List.mem_cons_of_mem _ he)
    cases e with
    | wait ms => exact ih (hk.congr rfl) hf' ht
    | command c =>
      refine ih (hk.congr ?_) hf' ht
      exact Redis.exec_cell_ne (hf _ (List.mem_cons_self ..) w remote).symm
    | request time r =>
      simp only [serve, List.forall_mem_cons] at ht
      obtain ⟨hnow, ht⟩ := ht
      by_cases hmine : r.counted cfg = true ∧ window time = w ∧ r.remote = remote
      · obtain ⟨hr, rfl, rfl⟩ := hmine
        have hw : 60000 * window time ≤ time ∧ time < 60000 * window time + 60000 := by
          unfold window
          omega
        have hn : s.now ≤ 60000 * window time + 120000 := by
          have := hnow.2
          simp only at this
          omega
        have hcounts : Counts (window time) r.remote (k + 1)
            (enforceOriginAndRateLimit cfg time r s).1 := by
          rw [enforce_counted hr hk hn]
          refine ⟨s.now + 120000, by simp, ?_⟩
          have := hnow.1
          simp only at this
          omega
        have hrest := ih hcounts hf' ht
        simp only [serve, verdicts, List.filter_cons, hr, and_self, decide_true, if_true,
          List.map_cons, List.length_cons, List.range'_succ]
        refine congrArg₂ _ ?_ hrest
        rw [enforce_counted hr hk hn]
        by_cases hle : (k : Int) + 1 ≤ cfg.rateLimitPerMinute
        · simp [hle, not_lt.2 hle, Except.isOk, Except.toBool]
        · simp [hle, lt_of_not_ge hle, Except.isOk, Except.toBool]
      · have hrest := ih (hk.congr (enforce_cell hmine)) hf' ht
        simpa only [serve, verdicts, List.filter_cons, hmine, decide_false, Bool.false_eq_true,
          if_false] using hrest

/-- **The first requests of a minute are served**: of the requests from one address in one minute,
those up to the limit are let in and all later ones are refused, whatever comes between them. -/
theorem first_served {l : List Event} (hs : s.cell (.rate w remote) = none)
    (hf : ∀ e ∈ l, e.Foreign) (ht : ∀ x ∈ (serve cfg l s).2, x.Timely) (j : Nat) (v : Bool)
    (hv : (verdicts cfg w remote (serve cfg l s).2)[j]? = some v) :
    v = true ↔ (j : Int) < cfg.rateLimitPerMinute := by
  have hk : Counts w remote 0 s := by
    simpa [Counts] using hs
  rw [verdicts_serve hk hf ht, List.getElem?_map, Option.map_eq_some_iff] at hv
  obtain ⟨i, hi, rfl⟩ := hv
  obtain ⟨hj, rfl⟩ := List.getElem?_eq_some_iff.1 hi
  rw [List.getElem_range']
  simp only [decide_eq_true_eq]
  omega

end

def aRequest : Request := ⟨none, some "messages.send", some "10.0.0.1"⟩

/-- Three requests in the first minute, of which the second is slow, and one in the next. -/
def fourRequests : List Event :=
  [.request 0 aRequest, .wait 70000, .request 20000 aRequest,
    .command (.set (.other "presence") "" 75), .request 59000 aRequest, .request 60000 aRequest]

def twoPerMinute : Config := ⟨[], true, 2⟩

/-- The third is refused. -/
theorem first_served_third :
    verdicts twoPerMinute 0 "10.0.0.1" (serve twoPerMinute fourRequests (.empty 0)).2 =
      [true, true, false] ∧
        (false = true ↔ ((2 : Nat) : Int) < twoPerMinute.rateLimitPerMinute) := by
  have hv : verdicts twoPerMinute 0 "10.0.0.1" (serve twoPerMinute fourRequests (.empty 0)).2 =
      [true, true, false] := by
    decide
  refine ⟨hv, @first_served twoPerMinute 0 "10.0.0.1" (.empty 0) fourRequests rfl ?_ (by decide) 2
    false ?_⟩
  · simp [fourRequests, Event.Foreign, Redis.Command.key]
  · rw [hv]
    rfl

end Security
