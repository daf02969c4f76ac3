import Freelancing.Reconciliation.Runs
import Freelancing.Txn.Trace

/-!
# What a reconciliation reports

The last version of a run reports each discrepant row once and no other (`Exact`). The version
before it is committed by the pass over the captured intents, with the verdict of that pass alone:
every verdict ever committed is right just when the pending rows do not change it.
-/

namespace Reconciliation

open Money (Currency IntentStatus PaymentIntent Provider ProviderResult Refund lower strip)
open Txn (Prog)
open Txn.Service

/-! ## Discrepant rows -/

/-- What the providers report, the same during the whole run. -/
abbrev Remote := Query → ProviderResult

def Differs (r : ProviderResult) (amountMinor : Int) (currency : Currency)
    (statuses : List String) : Prop :=
  r.amountMinor ≠ amountMinor ∨ r.currency ≠ currency ∨ r.status ∉ statuses

def CapturedDiscrepant (remote : Remote) (d : Db) (x : PaymentIntent) : Prop :=
  x.providerReference = none ∨ (∀ f ∈ d.money.fundings, f.intent ≠ x.id) ∨
    ∃ reference, x.providerReference = some reference ∧
      Differs (remote (.getTransaction x.provider reference)) x.amountMinor x.currency
        ["CAPTURED", "SUCCEEDED"]

def PendingDiscrepant (remote : Remote) (x : PaymentIntent) : Prop :=
  x.providerReference = none ∨ ∃ reference, x.providerReference = some reference ∧
    Differs (remote (.getTransaction x.provider reference)) x.amountMinor x.currency ["PENDING"]

def RefundDiscrepant (remote : Remote) (x : Refund) : Prop :=
  ∃ reference, x.providerReference = some reference ∧
    Differs (remote (.verifyRefund x.provider reference)) x.amountMinor x.currency ["PENDING"]

inductive Discrepant (remote : Remote) (provider : Provider) (d : Db) : Subject → Prop
  | captured (x : PaymentIntent) (hx : x ∈ d.money.intents) (hp : x.provider = provider)
      (hs : x.status = .captured) (h : CapturedDiscrepant remote d x) :
      Discrepant remote provider d (.paymentIntent x.id)
  | pending (x : PaymentIntent) (hx : x ∈ d.money.intents) (hp : x.provider = provider)
      (hs : x.status = .pending) (h : PendingDiscrepant remote x) :
      Discrepant remote provider d (.paymentIntent x.id)
  | refund (x : Refund) (hx : x ∈ d.money.refunds) (hp : x.provider = provider)
      (hs : x.status = .pending) (h : RefundDiscrepant remote x) :
      Discrepant remote provider d (.refund x.id)

/-! ## Findings -/

def capturedFinding (remote : Remote) (d : Db) (x : PaymentIntent) : Option Discrepancy :=
  match x.providerReference with
  | none => some ⟨.paymentIntent x.id, none, "missing_reference", none⟩
  | some reference =>
    compareCaptured x reference (remote (.getTransaction x.provider reference))
      (d.money.funding? x.id)

def pendingFinding (remote : Remote) (x : PaymentIntent) : Option Discrepancy :=
  match x.providerReference with
  | none => some ⟨.paymentIntent x.id, none, "pending_payment_missing_reference", none⟩
  | some reference =>
    comparePending (.paymentIntent x.id) x.amountMinor x.currency reference
      (remote (.getTransaction x.provider reference)) "pending_payment_provider_mismatch"
      "payment_status_mismatch"

def refundFinding (remote : Remote) (x : Refund) : Option Discrepancy :=
  match x.providerReference with
  | none => none
  | some reference =>
    comparePending (.refund x.id) x.amountMinor x.currency reference
      (remote (.verifyRefund x.provider reference)) "pending_refund_provider_mismatch"
      "refund_status_mismatch"

/-- `found` is the discrepancy of the row `subject` when the row is discrepant, and nothing else. -/
structure Finds (found : Option Discrepancy) (subject : Subject) (P : Prop) : Prop where
  iff : found.isSome = true ↔ P
  subject : ∀ y, found = some y → y.subject = subject

section
variable {remote : Remote} {d : Db} {provider : Provider}

theorem comparePending_finds {subject : Subject} {amountMinor : Int} {currency : Currency}
    {reference : String} {r : ProviderResult} {mismatch statusMismatch : String} :
    Finds (comparePending subject amountMinor currency reference r mismatch statusMismatch) subject
      (Differs r amountMinor currency ["PENDING"]) := by
  unfold comparePending Differs
  split
  · rename_i h
    simp only [Bool.or_eq_true, decide_eq_true_eq] at h
    refine ⟨⟨fun _ => ?_, fun _ => rfl⟩, fun y hy => Option.some.inj hy ▸ rfl⟩
    exact h.imp id .inl
  · rename_i h
    simp only [Bool.or_eq_true, decide_eq_true_eq, not_or] at h
    split
    · rename_i hs
      exact ⟨⟨fun _ => .inr (.inr (by simpa using hs)), fun _ => rfl⟩, fun y hy =>
        Option.some.inj hy ▸ rfl⟩
    · rename_i hs
      refine ⟨⟨nofun, fun hd => ?_⟩, nofun⟩
      rcases hd with hd | hd | hd
      · exact absurd hd h.1
      · exact absurd hd h.2
      · simp only [List.mem_singleton] at hd
        exact absurd hd hs

theorem capturedFinding_finds (x : PaymentIntent) :
    Finds (capturedFinding remote d x) (.paymentIntent x.id) (CapturedDiscrepant remote d x) := by
  unfold capturedFinding CapturedDiscrepant
  cases hr : x.providerReference with
  | none => exact ⟨⟨fun _ => .inl rfl, fun _ => rfl⟩, fun y hy => Option.some.inj hy ▸ rfl⟩
  | some reference =>
    have hfunding : (d.money.funding? x.id).isNone = true ↔
        ∀ f ∈ d.money.fundings, f.intent ≠ x.id := by
      rw [Option.isNone_iff_eq_none]
      exact Table.get_eq_none
    have hiff : ((d.money.funding? x.id).isNone
        || decide ((remote (.getTransaction x.provider reference)).amountMinor ≠ x.amountMinor)
        || decide ((remote (.getTransaction x.provider reference)).currency ≠ x.currency)
        || (decide ((remote (.getTransaction x.provider reference)).status ≠ "CAPTURED")
          && decide ((remote (.getTransaction x.provider reference)).status ≠ "SUCCEEDED"))) =
          true ↔
        (∀ f ∈ d.money.fundings, f.intent ≠ x.id) ∨
          Differs (remote (.getTransaction x.provider reference)) x.amountMinor x.currency
            ["CAPTURED", "SUCCEEDED"] := by
      simp only [Bool.or_eq_true, Bool.and_eq_true, decide_eq_true_eq, hfunding, Differs,
        List.mem_cons, List.not_mem_nil, or_false, not_or, or_assoc]
    simp only [compareCaptured, reduceCtorEq, false_or, Option.some.injEq, exists_eq_left']
    split
    · rename_i h
      exact ⟨⟨fun _ => hiff.1 h, fun _ => rfl⟩, fun y hy => Option.some.inj hy ▸ rfl⟩
    · rename_i h
      exact ⟨⟨nofun, fun hd => absurd (hiff.2 hd) h⟩, nofun⟩

theorem pendingFinding_finds (x : PaymentIntent) :
    Finds (pendingFinding remote x) (.paymentIntent x.id) (PendingDiscrepant remote x) := by
  unfold pendingFinding PendingDiscrepant
  cases hr : x.providerReference with
  | none => exact ⟨⟨fun _ => .inl rfl, fun _ => rfl⟩, fun y hy => Option.some.inj hy ▸ rfl⟩
  | some reference =>
    simp only [reduceCtorEq, false_or, Option.some.injEq, exists_eq_left']
    exact comparePending_finds

theorem refundFinding_finds (x : Refund) :
    Finds (refundFinding remote x) (.refund x.id) (RefundDiscrepant remote x) := by
  unfold refundFinding RefundDiscrepant
  cases hr : x.providerReference with
  | none => exact ⟨⟨nofun, fun h => by simp at h⟩, nofun⟩
  | some reference =>
    simp only [Option.some.injEq, exists_eq_left']
    exact comparePending_finds

/-! ## A pass over the rows of a list -/

theorem mem_findings {β : Type} {l : List β} {g : β → Option Discrepancy} (subject : β → Subject)
    {P : β → Prop} (hg : ∀ x, Finds (g x) (subject x) (P x)) {y : Subject} :
    y ∈ (l.filterMap g).map Discrepancy.subject ↔ ∃ x ∈ l, P x ∧ subject x = y := by
  simp only [List.mem_map, List.mem_filterMap]
  constructor
  · intro h
    obtain ⟨z, ⟨x, hx, hz⟩, rfl⟩ := h
    exact ⟨x, hx, (hg x).iff.1 (by rw [hz]; rfl), ((hg x).subject z hz).symm⟩
  · intro h
    obtain ⟨x, hx, hp, rfl⟩ := h
    obtain ⟨z, hz⟩ := Option.isSome_iff_exists.1 ((hg x).iff.2 hp)
    exact ⟨z, ⟨x, hx, hz⟩, (hg x).subject z hz⟩

theorem nodup_findings {β : Type} {l : List β} {g : β → Option Discrepancy} {subject : β → Subject}
    {P : β → Prop} (hg : ∀ x, Finds (g x) (subject x) (P x)) (hl : (l.map subject).Nodup) :
    ((l.filterMap g).map Discrepancy.subject).Nodup := by
  induction l with
  | nil => exact List.nodup_nil
  | cons x l ih =>
    rw [List.map_cons, List.nodup_cons] at hl
    rw [List.filterMap_cons]
    split
    · exact ih hl.2
    · rename_i z hz
      rw [List.map_cons, List.nodup_cons]
      refine ⟨fun hm => hl.1 ?_, ih hl.2⟩
      obtain ⟨x', hx', -, hs⟩ := (mem_findings subject hg).1 hm
      rw [(hg x).subject z hz] at hs
      rw [← hs]
      exact List.mem_map_of_mem hx'

end

/-! ## The commits of a run -/

section
variable {remote : Remote} {d : Db} {pend : Db → Db} {provider : Provider} {name : String}
  {runId : RunId} {now : Nat} {γ : Type}

abbrev Remote.answer (remote : Remote) : Query → Answer := fun q => .ok (remote q)

theorem trace_getProvider {f : Provider → Tx γ} (hname : lower (strip name) = provider)
    (hp : provider = "sandbox" ∨ provider = "stripe") :
    (getProvider true name >>= f).trace remote.answer d pend =
      (f provider).trace remote.answer d pend := by
  subst hname
  unfold getProvider
  rw [bind_assoc, trace_require rfl, bind_assoc, trace_require (decide_eq_true hp)]
  rfl

theorem trace_inspectCaptured {x : PaymentIntent} {f : Option Discrepancy → Tx γ} :
    (inspectCaptured x >>= f).trace remote.answer d pend =
      (f (capturedFinding remote (pend d) x)).trace remote.answer d pend := by
  unfold inspectCaptured capturedFinding
  cases x.providerReference with
  | none => rfl
  | some reference => rfl

theorem trace_inspectPendingIntent {x : PaymentIntent} {f : Option Discrepancy → Tx γ} :
    (inspectPendingIntent x >>= f).trace remote.answer d pend =
      (f (pendingFinding remote x)).trace remote.answer d pend := by
  unfold inspectPendingIntent pendingFinding
  cases x.providerReference with
  | none => rfl
  | some reference => rfl

theorem trace_inspectPendingRefund {x : Refund} {f : Option Discrepancy → Tx γ} :
    (inspectPendingRefund x >>= f).trace remote.answer d pend =
      (f (refundFinding remote x)).trace remote.answer d pend := by
  unfold inspectPendingRefund refundFinding
  cases x.providerReference with
  | none => rfl
  | some reference => rfl

/-- A pass counts every row of its list, and collects what it finds. -/
theorem trace_inspectAll {β : Type} {inspect : β → Tx (Option Discrepancy)}
    {g : β → Option Discrepancy} {f : Findings → Tx γ}
    (hg : ∀ (x : β) (k : Option Discrepancy → Tx γ),
      (inspect x >>= k).trace remote.answer d pend = (k (g x)).trace remote.answer d pend)
    (l : List β) (n : Nat) (ds : List Discrepancy) :
    (inspectAll inspect l ⟨n, ds⟩ >>= f).trace remote.answer d pend =
      (f ⟨n + l.length, ds ++ l.filterMap g⟩).trace remote.answer d pend := by
  induction l generalizing n ds with
  | nil =>
    rw [List.filterMap_nil, List.append_nil]
    rfl
  | cons x l ih =>
    unfold inspectAll
    rw [bind_assoc, hg, ih, List.length_cons, List.filterMap_cons]
    cases g x with
    | none => simp [Nat.add_assoc, Nat.add_comm 1]
    | some y => simp [Nat.add_assoc, Nat.add_comm 1]

def capturedFindings (remote : Remote) (provider : Provider) (d : Db) : List Discrepancy :=
  (capturedIntents provider d).filterMap (capturedFinding remote d)

def pendingFindings (remote : Remote) (provider : Provider) (d : Db) : List Discrepancy :=
  (pendingIntents provider d).filterMap (pendingFinding remote) ++
    (pendingRefunds provider d).filterMap (refundFinding remote)

/-- What the pass over the captured intents commits of the run, and what is committed last. -/
def capturedVersion (remote : Remote) (provider : Provider) (d : Db) (runId : RunId) (now : Nat) :
    ReconciliationRun where
  id := runId
  provider := provider
  status := verdict (capturedFindings remote provider d)
  checkedCount := (capturedIntents provider d).length
  discrepancyCount := (capturedFindings remote provider d).length
  details := some (capturedFindings remote provider d)
  completedAt := some now

def lastVersion (remote : Remote) (provider : Provider) (d : Db) (runId : RunId) (now : Nat) :
    ReconciliationRun :=
  let combined := capturedFindings remote provider d ++ pendingFindings remote provider d
  { capturedVersion remote provider d runId now with
    status := verdict combined
    checkedCount := (capturedIntents provider d).length +
      ((pendingIntents provider d).length + (pendingRefunds provider d).length)
    discrepancyCount := combined.length
    details := some combined }

theorem run?_modifyRun {f : ReconciliationRun → ReconciliationRun} (hf : ∀ x, (f x).id = x.id) :
    (d.modifyRun runId f).run? runId = (d.run? runId).map f := Table.get_modify_self hf

theorem run?_addRun {run : ReconciliationRun} (h : d.run? run.id = none) :
    (d.addRun run).run? run.id = some run := by
  change Table.get _ _ d.runs = none at h
  change Table.get _ _ (d.runs ++ [run]) = _
  rw [Table.get_append, h, Option.none_or, Table.get_cons, if_pos rfl]

theorem trace_inspectFirst {β : Type} {inspect : β → Tx (Option Discrepancy)}
    {g : β → Option Discrepancy} {f : Findings → Tx γ}
    (hg : ∀ (x : β) (k : Option Discrepancy → Tx γ),
      (inspect x >>= k).trace remote.answer d pend = (k (g x)).trace remote.answer d pend)
        (l : List β) : (inspectAll inspect l ⟨0, []⟩ >>= f).trace remote.answer d pend =
      (f ⟨l.length, l.filterMap g⟩).trace remote.answer d pend := by
  rw [trace_inspectAll hg, Nat.zero_add, List.nil_append]

theorem trace_reconcileCapturedProvider (remote : Remote) (now : Nat)
    (hname : lower (strip name) = provider) (hp : provider = "sandbox" ∨ provider = "stripe")
    (hid : d.run? runId = none) :
    ∃ d₁, d₁.run? runId = some (capturedVersion remote provider d runId now) ∧
      ∀ (γ : Type) (f : RunId → Tx γ),
        (reconcileCapturedProvider true name runId now >>= f).trace remote.answer d id =
          ⟨d₁ :: ((f runId).trace remote.answer d₁ id).commits,
            ((f runId).trace remote.answer d₁ id).result⟩ := by
  let d₀ := d.addRun ⟨runId, provider, .running, 0, 0, none, none⟩
  have hd₀ : d₀.run? runId = some ⟨runId, provider, .running, 0, 0, none, none⟩ :=
    run?_addRun hid
  let f₁ : ReconciliationRun → ReconciliationRun := fun run =>
    { run with
      checkedCount := (capturedIntents provider d).length
      discrepancyCount := (capturedFindings remote provider d).length
      details := some (capturedFindings remote provider d)
      status := verdict (capturedFindings remote provider d)
      completedAt := some now }
  refine ⟨d₀.modifyRun runId f₁, ?_, fun γ f => ?_⟩
  · rw [run?_modifyRun (f := f₁) fun _ => rfl, hd₀]
    rfl
  · unfold reconcileCapturedProvider
    simp only [bind_assoc]
    rw [trace_getProvider hname hp, trace_reserve (by rw [id_eq, hid]; rfl),
      trace_write, trace_select, trace_inspectFirst fun _ _ => trace_inspectCaptured, trace_write,
        trace_commit, pure_bind]
    rfl

/-- A reconciliation commits two versions of its run. -/
theorem trace_reconcileProvider (remote : Remote) (now : Nat)
    (hname : lower (strip name) = provider) (hp : provider = "sandbox" ∨ provider = "stripe")
    (hid : d.run? runId = none) :
    ∃ d₁ d₂, (reconcileProvider true name runId now).trace remote.answer d id =
      ⟨[d₁, d₂], .ok runId⟩ ∧
      d₁.run? runId = some (capturedVersion remote provider d runId now) ∧
      d₂.run? runId = some (lastVersion remote provider d runId now) := by
  obtain ⟨d₁, hd₁, hcaptured⟩ := trace_reconcileCapturedProvider remote now hname hp hid
  let combined := capturedFindings remote provider d ++ pendingFindings remote provider d
  let f₂ : ReconciliationRun → ReconciliationRun := fun x =>
    { x with
      checkedCount := (capturedIntents provider d).length +
        ((pendingIntents provider d).length + (pendingRefunds provider d).length)
      discrepancyCount := combined.length
      details := some combined
      status := verdict combined }
  refine ⟨d₁, d₁.modifyRun runId f₂, ?_, hd₁, ?_⟩
  · unfold reconcileProvider inspectPendingProviderState
    simp only [bind_assoc]
    rw [trace_getProvider hname hp, trace_select,
      trace_inspectFirst fun _ _ => trace_inspectPendingIntent,
      trace_select, trace_inspectAll fun _ _ => trace_inspectPendingRefund, hcaptured, trace_select,
      id_eq, hd₁]
    rfl
  · rw [run?_modifyRun (f := f₂) fun _ => rfl, hd₁]
    rfl

end

/-! ## What is reported -/

/-- The rows that a reconciliation inspects. -/
def inspectedCount (provider : Provider) (d : Db) : Nat :=
  d.money.intents.countP
    (fun x => x.provider = provider && (x.status = .captured || x.status = .pending)) +
    d.money.refunds.countP fun x =>
      x.provider = provider && x.status = .pending && x.providerReference.isSome

/-- The run reports the discrepant rows, each once, and no other. -/
structure Exact (remote : Remote) (provider : Provider) (d : Db) (run : ReconciliationRun) :
    Prop where
  once : (run.existingDiscrepancies.map Discrepancy.subject).Nodup
  exact : ∀ y, y ∈ run.existingDiscrepancies.map Discrepancy.subject ↔
    Discrepant remote provider d y
  checked : run.checkedCount = inspectedCount provider d
  counted : run.discrepancyCount = run.existingDiscrepancies.length

/-- The verdict of a version of a run. -/
def RightVerdict (remote : Remote) (provider : Provider) (d : Db) (run : ReconciliationRun) :
    Prop :=
  run.status ≠ .running → (run.status = .succeeded ↔ ∀ y, ¬ Discrepant remote provider d y)

def SomeCapturedDiscrepant (remote : Remote) (provider : Provider) (d : Db) : Prop :=
  ∃ x ∈ d.money.intents, x.provider = provider ∧ x.status = .captured ∧
    CapturedDiscrepant remote d x

structure PendingAgree (remote : Remote) (provider : Provider) (d : Db) : Prop where
  intents : ∀ x ∈ d.money.intents, x.provider = provider → x.status = .pending →
    ¬ PendingDiscrepant remote x
  refunds : ∀ x ∈ d.money.refunds, x.provider = provider → x.status = .pending →
    ¬ RefundDiscrepant remote x

section
variable {remote : Remote} {d : Db} {provider : Provider} {runId : RunId} {now : Nat} {y : Subject}

theorem mem_capturedFindings : y ∈ (capturedFindings remote provider d).map Discrepancy.subject ↔
    ∃ x ∈ d.money.intents, x.provider = provider ∧ x.status = .captured ∧
      CapturedDiscrepant remote d x ∧ .paymentIntent x.id = y := by
  rw [capturedFindings, mem_findings (fun x => .paymentIntent x.id) capturedFinding_finds]
  simp only [capturedIntents, List.mem_filter, Bool.and_eq_true, decide_eq_true_eq, and_assoc]

theorem mem_pendingFindings : y ∈ (pendingFindings remote provider d).map Discrepancy.subject ↔
    (∃ x ∈ d.money.intents, x.provider = provider ∧ x.status = .pending ∧
      PendingDiscrepant remote x ∧
      .paymentIntent x.id = y) ∨
    ∃ x ∈ d.money.refunds, x.provider = provider ∧ x.status = .pending ∧ RefundDiscrepant remote x ∧
      .refund x.id = y := by
  rw [pendingFindings, List.map_append, List.mem_append,
    mem_findings (fun x => .paymentIntent x.id) pendingFinding_finds,
    mem_findings (fun x => .refund x.id) refundFinding_finds]
  simp only [pendingIntents, pendingRefunds, List.mem_filter, Bool.and_eq_true,
    decide_eq_true_eq, and_assoc]
  refine or_congr Iff.rfl ⟨fun h => ?_, fun h => ?_⟩
  · obtain ⟨x, hx, hp, hs, -, hd, hy⟩ := h
    exact ⟨x, hx, hp, hs, hd, hy⟩
  · obtain ⟨x, hx, hp, hs, hd, hy⟩ := h
    obtain ⟨reference, hr, hdiffers⟩ := hd
    exact ⟨x, hx, hp, hs, by rw [hr]; rfl, ⟨reference, hr, hdiffers⟩, hy⟩

theorem mem_allFindings :
    y ∈ (capturedFindings remote provider d ++ pendingFindings remote provider d).map
      Discrepancy.subject ↔
      Discrepant remote provider d y := by
  rw [List.map_append, List.mem_append, mem_capturedFindings, mem_pendingFindings]
  constructor
  · intro h
    rcases h with ⟨x, hx, hp, hs, hd, rfl⟩ | ⟨x, hx, hp, hs, hd, rfl⟩ | ⟨x, hx, hp, hs, hd, rfl⟩
    · exact .captured x hx hp hs hd
    · exact .pending x hx hp hs hd
    · exact .refund x hx hp hs hd
  · intro h
    cases h with
    | captured x hx hp hs hd => exact .inl ⟨x, hx, hp, hs, hd, rfl⟩
    | pending x hx hp hs hd => exact .inr (.inl ⟨x, hx, hp, hs, hd, rfl⟩)
    | refund x hx hp hs hd => exact .inr (.inr ⟨x, hx, hp, hs, hd, rfl⟩)

theorem nodup_subjects {β : Type} {l : List β} {f : β → Nat} {p : β → Bool} {c : Nat → Subject}
    (hc : Function.Injective c) (hl : (l.map f).Nodup) :
    ((l.filter p).map fun x => c (f x)).Nodup := by
  have hmap : (l.filter p).map (fun x => c (f x)) = ((l.filter p).map f).map c := by
    rw [List.map_map]
    rfl
  rw [hmap]
  exact ((List.filter_sublist.map f).nodup hl).map hc

/-- An intent is captured or pending, not both. -/
theorem nodup_allFindings (hintents : (d.money.intents.map PaymentIntent.id).Nodup)
    (hrefunds : (d.money.refunds.map Refund.id).Nodup) :
    ((capturedFindings remote provider d ++ pendingFindings remote provider d).map
      Discrepancy.subject).Nodup := by
  have hpayment : Function.Injective Subject.paymentIntent :=
    fun _ _ h => Subject.paymentIntent.inj h
  have hrefund : Function.Injective Subject.refund := fun _ _ h => Subject.refund.inj h
  rw [List.map_append]
  refine List.nodup_append.2 ⟨?_, ?_, fun a ha b hb hab => ?_⟩
  · exact nodup_findings capturedFinding_finds (nodup_subjects hpayment hintents)
  · rw [pendingFindings, List.map_append]
    refine List.nodup_append.2 ⟨?_, ?_, fun a ha b hb hab => ?_⟩
    · exact nodup_findings pendingFinding_finds (nodup_subjects hpayment hintents)
    · exact nodup_findings refundFinding_finds (nodup_subjects hrefund hrefunds)
    · obtain ⟨x, -, -, rfl⟩ :=
        (mem_findings (fun x => .paymentIntent x.id) pendingFinding_finds).1 ha
      obtain ⟨x', -, -, rfl⟩ := (mem_findings (fun x => .refund x.id) refundFinding_finds).1 hb
      cases hab
  · subst hab
    obtain ⟨x, hx, -, hs, -, rfl⟩ := mem_capturedFindings.1 ha
    rcases mem_pendingFindings.1 hb with ⟨x', hx', -, hs', -, he⟩ | ⟨x', -, -, -, -, he⟩
    · have hxx : x' = x := List.inj_on_of_nodup_map hintents hx' hx (hpayment he)
      rw [hxx, hs] at hs'
      cases hs'
    · cases he

theorem verdict_eq_succeeded {ds : List Discrepancy} :
    verdict ds = .succeeded ↔ ∀ y, y ∉ ds.map Discrepancy.subject := by
  cases ds with
  | nil => simp [verdict]
  | cons x ds =>
    refine ⟨fun h => by simp [verdict] at h, fun h => absurd ?_ (h x.subject)⟩
    exact List.mem_map_of_mem List.mem_cons_self

theorem verdict_ne_running {ds : List Discrepancy} : verdict ds ≠ .running := by
  unfold verdict
  split
  · exact nofun
  · exact nofun

theorem countP_or {β : Type} {l : List β} {p q r : β → Bool}
    (h : ∀ x, ¬ (q x = true ∧ r x = true)) :
    (l.filter fun x => p x && q x).length + (l.filter fun x => p x && r x).length =
      l.countP fun x => p x && (q x || r x) := by
  induction l with
  | nil => rfl
  | cons x l ih =>
    have hx := h x
    simp only [List.filter_cons, List.countP_cons]
    cases hp : p x <;> cases hq : q x <;> cases hr : r x <;> simp_all <;> omega

theorem lastVersion_exact (hintents : (d.money.intents.map PaymentIntent.id).Nodup)
    (hrefunds : (d.money.refunds.map Refund.id).Nodup) :
    Exact remote provider d (lastVersion remote provider d runId now) where
  once := nodup_allFindings hintents hrefunds
  exact _ := mem_allFindings
  checked := by
    change (capturedIntents provider d).length +
      ((pendingIntents provider d).length + (pendingRefunds provider d).length) = _
    rw [← Nat.add_assoc, capturedIntents, pendingIntents, countP_or, pendingRefunds, inspectedCount,
      ← List.countP_eq_length_filter]
    intro x h
    simp only [decide_eq_true_eq] at h
    rw [h.1] at h
    cases h.2
  counted := rfl

theorem lastVersion_verdict :
    RightVerdict remote provider d (lastVersion remote provider d runId now) := by
  intro _
  refine verdict_eq_succeeded.trans (forall_congr' fun y => not_congr mem_allFindings)

theorem capturedVersion_verdict (runId : RunId) (now : Nat) :
    RightVerdict remote provider d (capturedVersion remote provider d runId now) ↔
      SomeCapturedDiscrepant remote provider d ∨ PendingAgree remote provider d := by
  have hstatus : (capturedVersion remote provider d runId now).status = .succeeded ↔
      ¬ SomeCapturedDiscrepant remote provider d := by
    refine verdict_eq_succeeded.trans ⟨fun h hs => ?_, fun h y hy => h ?_⟩
    · obtain ⟨x, hx, hp, hs, hd⟩ := hs
      exact h _ (mem_capturedFindings.2 ⟨x, hx, hp, hs, hd, rfl⟩)
    · obtain ⟨x, hx, hp, hs, hd, -⟩ := mem_capturedFindings.1 hy
      exact ⟨x, hx, hp, hs, hd⟩
  have hnone : (∀ y, ¬ Discrepant remote provider d y) ↔
      ¬ SomeCapturedDiscrepant remote provider d ∧ PendingAgree remote provider d := by
    constructor
    · intro h
      refine ⟨fun hs => ?_, fun x hx hp hs hd => h _ (.pending x hx hp hs hd),
        fun x hx hp hs hd => h _ (.refund x hx hp hs hd)⟩
      obtain ⟨x, hx, hp, hs, hd⟩ := hs
      exact h _ (.captured x hx hp hs hd)
    · intro h y hy
      cases hy with
      | captured x hx hp hs hd => exact h.1 ⟨x, hx, hp, hs, hd⟩
      | pending x hx hp hs hd => exact h.2.intents x hx hp hs hd
      | refund x hx hp hs hd => exact h.2.refunds x hx hp hs hd
  rw [RightVerdict, hstatus, hnone]
  have hrun : (capturedVersion remote provider d runId now).status ≠ .running := verdict_ne_running
  constructor
  · intro h
    by_cases hs : SomeCapturedDiscrepant remote provider d
    · exact .inl hs
    · exact .inr ((h hrun).1 hs).2
  · intro h _
    refine ⟨fun hs => ⟨hs, h.resolve_left hs⟩, fun hs => hs.1⟩

end

/-- **Reconciliation reports exactly the discrepancies**, and every verdict that it commits is right
just when a captured intent is discrepant or no pending row is. -/
theorem reconciliation_exact (remote : Remote) (d : Db) (name : String) (runId : RunId) (now : Nat)
    {provider : Provider} (hname : lower (strip name) = provider)
    (hp : provider = "sandbox" ∨ provider = "stripe")
    (hintents : (d.money.intents.map PaymentIntent.id).Nodup)
    (hrefunds : (d.money.refunds.map Refund.id).Nodup) (hid : d.run? runId = none) :
    let t := (reconcileProvider true name runId now).trace remote.answer d id
    t.result = .ok runId ∧
    (∃ last run, t.commits.getLast? = some last ∧ last.run? runId = some run ∧
      Exact remote provider d run ∧ RightVerdict remote provider d run) ∧
    ((∀ e ∈ t.commits, ∀ run, e.run? runId = some run → RightVerdict remote provider d run) ↔
      SomeCapturedDiscrepant remote provider d ∨ PendingAgree remote provider d) := by
  obtain ⟨d₁, d₂, ht, hd₁, hd₂⟩ := trace_reconcileProvider remote now hname hp hid
  rw [ht]
  refine ⟨rfl, ⟨d₂, _, rfl, hd₂, lastVersion_exact hintents hrefunds, lastVersion_verdict⟩, ?_⟩
  rw [← capturedVersion_verdict runId now]
  constructor
  · intro h
    exact h d₁ List.mem_cons_self _ hd₁
  · intro h e he run hrun
    simp only [List.mem_cons, List.not_mem_nil, or_false] at he
    rcases he with rfl | rfl
    · rw [hd₁] at hrun
      obtain rfl := Option.some.inj hrun
      exact h
    · rw [hd₂] at hrun
      obtain rfl := Option.some.inj hrun
      exact lastVersion_verdict

/-! ## A pending payment -/

/-- One pending intent, and no run yet. -/
def onePending : Db where
  money := {
    contracts := []
    milestones := []
    idempotency := []
    intents := [⟨1, 1, 1, "sandbox", some "r", ⟨1, .milestoneFund, "k"⟩, 100, "USD",
      .pending, none⟩]
    events := []
    accounts := []
    journals := []
    escrows := []
    fundings := []
    refunds := []
    payouts := []
    payoutAccounts := []
    disputes := []
    decisions := []
    outbox := []
    clock := 0 }
  runs := []

/-- The payment has been captured remotely: the version that is committed first says `SUCCEEDED`. -/
theorem reconciliation_premature :
    ¬ ∀ (remote : Remote) (d : Db) (name : String) (runId : RunId) (now : Nat),
    d.run? runId = none →
      ∀ e ∈ ((reconcileProvider true name runId now).trace remote.answer d id).commits,
      ∀ run, e.run? runId = some run → RightVerdict remote (lower (strip name)) d run := by
  intro h
  let remote : Remote := fun _ => ⟨"r", "CAPTURED", 100, "USD"⟩
  obtain ⟨d₁, d₂, ht, hd₁, -⟩ :=
    trace_reconcileProvider remote 5 (rfl : lower (strip "sandbox") = _) (.inl (by decide))
      (show onePending.run? 7 = none from rfl)
  have hv := h remote onePending "sandbox" 7 5 rfl d₁ (by rw [ht]; exact List.mem_cons_self) _ hd₁
  rcases (capturedVersion_verdict 7 5).1 hv with hs | hs
  · obtain ⟨x, hx, -, hs, -⟩ := hs
    obtain rfl := List.mem_singleton.1 hx
    cases hs
  · refine hs.intents _ (List.mem_singleton_self _)
      (by decide) rfl (.inr ⟨"r", rfl, .inr (.inr ?_)⟩)
    decide

/-! ## Several rows -/

def capturedIntent (id : Money.IntentId) (reference : String) : PaymentIntent :=
  ⟨id, id, 1, "sandbox", some reference, ⟨1, .milestoneFund, reference⟩, 100, "USD",
    .captured, some 1⟩

def pendingRefund (id : Money.RefundId) (reference : String) : Refund :=
  ⟨id, id, 1, ⟨.milestoneRefund, .refund id⟩, ⟨1, .milestoneRefund, reference⟩, "sandbox",
    some reference, 100, "USD", .pending, 1⟩

/-- Two captured intents, a pending one and two pending refunds; the intent of the other provider
has no reference. -/
def severalRows : Db where
  money := { onePending.money with
    intents := [capturedIntent 1 "a", capturedIntent 2 "b",
      ⟨3, 3, 1, "sandbox", some "c", ⟨1, .milestoneFund, "c"⟩, 100, "USD", .pending, none⟩,
      ⟨4, 4, 1, "stripe", none, ⟨1, .milestoneFund, "d"⟩, 100, "USD", .captured, none⟩]
    fundings := [⟨1, 1, ⟨.milestoneFund, .paymentIntent 1⟩, 100⟩,
      ⟨2, 2, ⟨.milestoneFund, .paymentIntent 2⟩, 100⟩]
    refunds := [pendingRefund 1 "x", pendingRefund 2 "y"] }
  runs := []

/-- The payment "b" has another amount, and the refund "x" has failed. -/
def twoDiffer : Remote
  | .getTransaction _ "a" => ⟨"a", "CAPTURED", 100, "USD"⟩
  | .getTransaction _ "b" => ⟨"b", "CAPTURED", 90, "USD"⟩
  | .verifyRefund _ "x" => ⟨"x", "FAILED", 100, "USD"⟩
  | .getTransaction _ reference => ⟨reference, "PENDING", 100, "USD"⟩
  | .verifyRefund _ reference => ⟨reference, "PENDING", 100, "USD"⟩

theorem discrepant_severalRows {y : Subject} :
    Discrepant twoDiffer "sandbox" severalRows y ↔ y ∈ [.paymentIntent 2, .refund 1] := by
  constructor
  · intro h
    cases h with
    | captured x hx hp hs h =>
      simp only [severalRows, List.mem_cons, List.not_mem_nil, or_false] at hx
      rcases hx with rfl | rfl | rfl | rfl
      · simp [CapturedDiscrepant, Differs, severalRows, capturedIntent, twoDiffer] at h
      · simp [capturedIntent]
      · cases hs
      · simp at hp
    | pending x hx hp hs h =>
      simp only [severalRows, List.mem_cons, List.not_mem_nil, or_false] at hx
      rcases hx with rfl | rfl | rfl | rfl
      · cases hs
      · cases hs
      · simp [PendingDiscrepant, Differs, twoDiffer] at h
      · cases hs
    | refund x hx hp hs h =>
      simp only [severalRows, List.mem_cons, List.not_mem_nil, or_false] at hx
      rcases hx with rfl | rfl
      · simp [pendingRefund]
      · simp [RefundDiscrepant, Differs, pendingRefund, twoDiffer] at h
  · intro hy
    simp only [List.mem_cons, List.not_mem_nil, or_false] at hy
    rcases hy with rfl | rfl
    · exact .captured (capturedIntent 2 "b") (by simp [severalRows]) rfl rfl
        (.inr (.inr ⟨"b", rfl, .inl (by decide)⟩))
    · exact .refund (pendingRefund 1 "x") (by simp [severalRows]) rfl rfl
        ⟨"x", rfl, .inr (.inr (by decide))⟩

/-- Of the five rows of the provider, the captured intent and the refund that differ are reported,
and every verdict is right. -/
theorem reconciliation_exact_several : ∃ (last : Db) (run : ReconciliationRun),
    last.run? 7 = some run ∧ run.checkedCount = 5 ∧ run.discrepancyCount = 2 ∧
      (run.existingDiscrepancies.map Discrepancy.subject).Perm [.paymentIntent 2, .refund 1] ∧
      ∀ e ∈
        ((reconcileProvider true " Sandbox " 7 5).trace twoDiffer.answer severalRows id).commits,
        ∀ run, e.run? 7 = some run → RightVerdict twoDiffer "sandbox" severalRows run := by
  obtain ⟨-, ⟨last, run, -, hrun, hexact, -⟩, hright⟩ :=
    reconciliation_exact twoDiffer severalRows " Sandbox " 7 5
      (show lower (strip " Sandbox ") = "sandbox" by decide) (.inl rfl) (by decide) (by decide) rfl
  have hperm : (run.existingDiscrepancies.map Discrepancy.subject).Perm
      [.paymentIntent 2, .refund 1] :=
    (List.perm_ext_iff_of_nodup hexact.once (by decide)).2 fun y =>
      (hexact.exact y).trans discrepant_severalRows
  have hcount : run.discrepancyCount = 2 := by
    rw [hexact.counted, ← List.length_map (f := Discrepancy.subject), hperm.length_eq]
    rfl
  have hsome : SomeCapturedDiscrepant twoDiffer "sandbox" severalRows :=
    ⟨capturedIntent 2 "b", by simp [severalRows], rfl, rfl,
      .inr (.inr ⟨"b", rfl, .inl (by decide)⟩)⟩
  exact ⟨last, run, hrun, hexact.checked.trans (by decide), hcount, hperm, hright.2 (.inl hsome)⟩

end Reconciliation
