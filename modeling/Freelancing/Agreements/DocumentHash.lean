import Freelancing.Agreements.ContractIntegrity
import Freelancing.JsonText

/-!
# What a document hash stands for

The text that is hashed has all of a snapshot: two snapshots with one text are equal
(`Snapshot.eq_of_dumps`). A signature has the hash of the version that was signed, so that a party
has signed one document only (`signed_document`).
-/

namespace Agreements

open Txn (Sys Mode)

/-! ## The text of a uuid -/

theorem eq_of_hexDigits {n a b : Nat} (ha : a < 16 ^ n) (hb : b < 16 ^ n)
    (h : ∀ k < n, a / 16 ^ k % 16 = b / 16 ^ k % 16) : a = b := by
  induction n generalizing a b with
  | zero => omega
  | succ n ih =>
    have hq : a / 16 = b / 16 := by
      refine ih (by omega) (by omega) fun k hk => ?_
      have := h (k + 1) (by omega)
      rwa [Nat.pow_succ', ← Nat.div_div_eq_div_mul, ← Nat.div_div_eq_div_mul] at this
    have hr := h 0 (by omega)
    simp only [Nat.pow_zero, Nat.div_one] at hr
    omega

theorem hexDigit_inj {a b : Nat} (ha : a < 16) (hb : b < 16)
    (h : Json.hexDigit a = Json.hexDigit b) : a = b := by
  have hall : ∀ a < 16, ∀ b < 16, Json.hexDigit a = Json.hexDigit b → a = b := by decide
  exact hall a ha b hb h

/-- The digits between the dashes. -/
def undash (l : List Char) : List Char :=
  l.take 8 ++ (l.drop 9).take 4 ++ (l.drop 14).take 4 ++ (l.drop 19).take 4 ++ l.drop 24

theorem undash_dash {d : List Char} (h : d.length = 32) :
    undash (d.take 8 ++ '-' :: (d.drop 8).take 4 ++ '-' :: (d.drop 12).take 4 ++
      '-' :: (d.drop 16).take 4 ++ '-' :: d.drop 20) = d := by
  have hsplit : ∀ m n : Nat, (d.drop m).take n ++ d.drop (m + n) = d.drop m := by
    intro m n
    rw [← List.drop_drop]
    exact List.take_append_drop n (d.drop m)
  simp [undash, List.drop_append, h, List.drop_take, hsplit 16 4, hsplit 12 4,
    hsplit 8 4]

theorem uuidText_inj {a b : Nat} (ha : a < 2 ^ 128) (hb : b < 2 ^ 128)
    (h : uuidText a = uuidText b) : a = b := by
  have hd := congrArg undash (String.ofList_injective h)
  rw [undash_dash (by simp), undash_dash (by simp)] at hd
  rw [show 2 ^ 128 = 16 ^ 32 by norm_num] at ha hb
  refine eq_of_hexDigits (n := 32) ha hb fun k hk => ?_
  have := List.map_inj_left.1 hd k (by simpa using hk)
  exact hexDigit_inj (Nat.mod_lt _ (by decide)) (Nat.mod_lt _ (by decide)) this

/-! ## Snapshots -/

theorem ScanStatus.name_inj {a b : ScanStatus} (h : a.name = b.name) : a = b := by
  cases a <;> cases b <;> simp_all [ScanStatus.name]

theorem SnapshotMilestone.eq_of_canon {x y : SnapshotMilestone}
    (h : x.toJson.canon = y.toJson.canon) : x = y := by
  have hf := Json.fields_of_canon h (by simp) (by simp)
  simp only [List.map_cons, List.map_nil, Json.canon, List.cons.injEq, Json.num.injEq,
    Json.str.injEq, Nat.cast_inj, and_true] at hf
  obtain ⟨h1, h2, h3, h4, h5⟩ := hf
  cases x
  cases y
  simp_all

/-- The text of an attachment has all of it but its project, which the snapshot names. -/
theorem ProjectAttachment.eq_of_canon {x y : ProjectAttachment} (hx : x.id < 2 ^ 128)
    (hy : y.id < 2 ^ 128) (hp : x.project = y.project) (h : x.toJson.canon = y.toJson.canon) :
    x = y := by
  have hf := Json.fields_of_canon h (by simp) (by simp)
  simp only [List.map_cons, List.map_nil, Json.canon, List.cons.injEq, Json.num.injEq,
    Json.str.injEq, and_true] at hf
  obtain ⟨h1, h2, h3, h4, h5⟩ := hf
  have h1 := uuidText_inj hx hy h1
  have h5 := ScanStatus.name_inj h5
  cases x
  cases y
  simp_all

/-- A uuid has 128 bits. -/
structure Snapshot.Wide (s : Snapshot) : Prop where
  project : s.projectId < 2 ^ 128
  proposal : s.proposalId < 2 ^ 128
  version : s.proposalVersionId < 2 ^ 128
  files : ∀ a ∈ s.attachments, a.id < 2 ^ 128

/-- The attachments are those of the project. -/
structure Snapshot.Valid (s : Snapshot) : Prop extends s.Wide where
  attachments : ∀ a ∈ s.attachments, a.project = s.projectId

/-- Lists of values with the same texts are equal. -/
theorem eq_of_canonItems {α : Type} {toJson : α → Json} {l l' : List α}
    (h : Json.canonItems (l.map toJson) = Json.canonItems (l'.map toJson))
    (hinj : ∀ x ∈ l, ∀ y ∈ l', (toJson x).canon = (toJson y).canon → x = y) : l = l' := by
  rw [Json.canonItems_eq, Json.canonItems_eq, List.map_map, List.map_map] at h
  induction l generalizing l' with
  | nil =>
    cases l' with
    | nil => rfl
    | cons y l' => cases h
  | cons x l ih =>
    cases l' with
    | nil => cases h
    | cons y l' =>
      obtain ⟨hxy, h⟩ := List.cons.inj h
      rw [hinj x (List.mem_cons_self ..) y (List.mem_cons_self ..) hxy,
        ih h fun a ha b hb => hinj a (List.mem_cons_of_mem _ ha) b (List.mem_cons_of_mem _ hb)]

/-- **The hashed text has all of a snapshot.** -/
theorem Snapshot.eq_of_dumps {x y : Snapshot} (hx : x.Valid) (hy : y.Valid)
    (h : x.toJson.dumps = y.toJson.dumps) : x = y := by
  have hf := Json.fields_of_canon (Json.canon_eq_of_dumps h) (by simp) (by simp)
  simp only [List.map_cons, List.map_nil, List.cons.injEq, and_true] at hf
  obtain ⟨-, hsource, hscope, hprice, hcurrency, hdays, hmilestones, hcommission, -, -, hatt⟩ := hf
  have hsource := Json.fields_of_canon hsource (by simp) (by simp)
  have hscope := Json.fields_of_canon hscope (by simp) (by simp)
  have hprice := Json.fields_of_canon hprice (by simp) (by simp)
  have hcommission := Json.fields_of_canon hcommission (by simp) (by simp)
  simp only [List.map_cons, List.map_nil, Json.canon, List.cons.injEq, Json.num.injEq,
    Json.str.injEq, Nat.cast_inj, and_true] at hsource hscope hprice hcommission
  simp only [Json.canon, Json.num.injEq, Json.str.injEq, Json.arr.injEq]
    at hcurrency hdays hmilestones hatt
  obtain ⟨h1, h2, h3, h4⟩ := hsource
  obtain ⟨h5, h6, h7⟩ := hscope
  have h1 := uuidText_inj hx.project hy.project h1
  have h2 := uuidText_inj hx.proposal hy.proposal h2
  have h3 := uuidText_inj hx.version hy.version h3
  have h8 := eq_of_canonItems hmilestones fun a _ b _ hab => SnapshotMilestone.eq_of_canon hab
  have h9 := eq_of_canonItems hatt fun a ha b hb hab => by
    have hproject : a.project = b.project := by
      rw [hx.attachments a ha, hy.attachments b hb, h1]
    exact ProjectAttachment.eq_of_canon (hx.files a ha) (hy.files b hb) hproject hab
  cases x
  cases y
  simp_all

/-! ## Signatures -/

section
variable {cfg : Settings} {d : Db} {services : Nat → Service} {s : Platform} {mode : Mode}
  {ok : Move → Prop}

theorem Consistent.agreed_version (hd : Consistent cfg d) {n : ContractVersion}
    (hn : n ∈ d.versions) : ∃ x c v, Agreed cfg d x c n v := by
  obtain ⟨x, hx⟩ := Option.isSome_iff_exists.1 (hd.bound n hn)
  have hxid : x.id = n.contract := Table.get_key hx
  obtain ⟨c, n', v, ha⟩ := hd.agreed x (Table.get_mem hx)
  have hmem : n ∈ d.versionsOf x.id := List.mem_filter.2 ⟨hn, by simp [hxid]⟩
  rw [ha.versions] at hmem
  obtain rfl := List.mem_singleton.1 hmem
  exact ⟨x, c, v, ha⟩

/-- A stored snapshot names the project of its attachments. -/
theorem Agreed.valid {x : ContractDetails} {c : Money.Contract} {n : ContractVersion}
    {v : ProposalVersion} (h : Agreed cfg d x c n v) (hw : n.snapshot.Wide) : n.snapshot.Valid := by
  obtain ⟨project, proposal, attachments, bps, -, -, -, -, hatt, hs⟩ := h.snapshot
  refine ⟨hw, ?_⟩
  rw [hs]
  exact hatt

/-- **A signature is for one document**, in every state of every run: no other snapshot has the
hash, unless SHA-256 has one value for the two texts. -/
theorem signed_document (hd : Blank d) (hr : Sys.Run mode ok (platform cfg d services) s) :
    ∀ g ∈ s.db.signatures, ∃ n ∈ s.db.versions, n.id = g.version ∧
      g.documentHash = cfg.documentHash n.snapshot ∧
      ∀ y : Snapshot, n.snapshot.Wide → y.Valid →
        (cfg.sha256 y.toJson.dumps = cfg.sha256 n.snapshot.toJson.dumps →
          y.toJson.dumps = n.snapshot.toJson.dumps) →
        cfg.documentHash y = g.documentHash → y = n.snapshot := by
  intro g hg
  have hs := consistent_of_run hd.consistent hr
  obtain ⟨n, hn, hgn⟩ := hs.signed g hg
  have hmem := Table.get_mem hn
  obtain ⟨x, c, v, ha⟩ := hs.agreed_version hmem
  have hhash : g.documentHash = cfg.documentHash n.snapshot := hgn.trans ha.hash
  refine ⟨n, hmem, Table.get_key hn, hhash, fun y hw hy hcollision h => ?_⟩
  exact Snapshot.eq_of_dumps hy (ha.valid hw) (hcollision (h.trans hhash))

end

theorem signed_document_twice : ∃ s : Platform, s.db.signatures.length = 2 ∧
    ∀ g ∈ s.db.signatures, ∃ n ∈ s.db.versions, n.id = g.version ∧
      g.documentHash = someSettings.documentHash n.snapshot ∧
      ∀ y : Snapshot, y.Valid →
        (someSettings.sha256 y.toJson.dumps = someSettings.sha256 n.snapshot.toJson.dumps →
          y.toJson.dumps = n.snapshot.toJson.dumps) →
        someSettings.documentHash y = g.documentHash → y = n.snapshot := by
  obtain ⟨s, hr, ⟨-, -, hsigned⟩, hids⟩ := exists_signed
  refine ⟨s, hsigned, fun g hg => ?_⟩
  obtain ⟨n, hn, hid, hhash, h⟩ := signed_document oneProject_blank hr g hg
  obtain ⟨h1, h2, h3, h4⟩ := hids n hn
  have hw : n.snapshot.Wide :=
    ⟨by simp [h1], by simp [h2], by simp [h3], by simp [List.length_eq_zero_iff.1 h4]⟩
  exact ⟨n, hn, hid, hhash, fun y => h y hw⟩

end Agreements
