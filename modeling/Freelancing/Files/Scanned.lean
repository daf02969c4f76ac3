import Freelancing.Files.Steps

/-!
# What a download serves

A file that is safe or rejected stays so in every run. The presigned URL of an upload outlives the
scan: the object of a safe file is the one that the scanner judged in the runs in which no put
replaces it once it has been read.
-/

namespace Files

open Money (UserId Err)
open Txn (Law Mode View Sys Design Prog)
open Txn.Service

/-! ## Requests -/

inductive Reply
  | file (f : FileObject)
  | put
  | processed (n : Nat)
  | download (f : FileObject)

inductive Service
  | upload (user : UserId) (originalName mimeType : String) (sizeBytes : Int) (purpose : String)
      (sha256 : Option String) (id : FileId)
  | put (file : FileId) (bytes : Bytes)
  | complete (user : UserId) (file : FileId) (event : EventId) (now : Nat)
  | drain (limit : Nat)
  | download (user : UserId) (file : FileId) (authorized : Bool)

def Service.program (cfg : Settings) : Service → Tx Reply
  | .upload user originalName mimeType sizeBytes purpose sha256 id => do
    let file ← createUpload cfg user originalName mimeType sizeBytes purpose sha256 id
    pure (.file file)
  | .put file bytes => do
    putUpload file bytes
    pure .put
  | .complete user file event now => do
    let file ← completeUpload user file event now
    pure (.file file)
  | .drain limit => do
    let processed ← drainScanOutbox cfg limit
    pure (.processed processed)
  | .download user file authorized => do
    let file ← createDownload user file authorized
    pure (.download file)

/-- A download that has been served is of a safe file. -/
def Reply.Holds (d : Db) : Reply → Prop
  | .download f => d.file? f.id = some f ∧ f.status = .safe
  | _ => True

abbrev Storage := Sys Db LockName (Txn.Point CommitPoint) Empty Empty Err Reply Unit

def storage (cfg : Settings) (d : Db) (services : Nat → Service) : Storage :=
  Sys.init d () fun i => (services i).program cfg

/-- The objects of the safe files are what the scanner judged safe. -/
def ServesScanned (cfg : Settings) (d : Db) : Prop := ∀ f ∈ d.files, f.status = .safe →
  ∃ o, d.object? f.objectKey = some o ∧ f.sha256 = some (cfg.sha256 o.bytes) ∧
    (scan cfg o.bytes f.mimeType).safe = true

/-- No put replaces an object that has been judged safe, or that a scan is about to judge safe. -/
def unreplaced (cfg : Settings) : Move → Bool
  | .stmt _ (.commit (.put o)) d _ _ =>
    d.files.all fun f => f.objectKey ≠ o.key || f.status ≠ .safe || d.object? o.key = some o
  | .stmt _ (.commit (.scanned f o _)) d _ _ =>
    !(verdict cfg f o.bytes).safe || d.object? f.objectKey = some o
  | _ => true

section
variable {cfg : Settings} {mode : Mode} {ok : Move → Prop} {d d' : Db} {services : Nat → Service}
  {s s' : Storage} {i : Nat} {b : Bool} {w : Db × Unit} {f g : FileObject}

theorem createDownload_wp {user : UserId} {fileId : FileId} {authorized : Bool}
    {Q : TxView → FileObject → Prop}
    (h : ∀ w' f, w'.1.file? f.id = some f → f.status = .safe → Q ⟨∅, id, mode.inTxn, w'⟩ f) :
    Obliged cfg mode ok i (createDownload user fileId authorized) ⟨∅, id, b, w⟩ Q := by
  unfold createDownload
  refine Law.wp_bind (Design.frames.wp_select fun w₁ _ => ?_)
  split
  · trivial
  · rename_i f hf
    obtain rfl : f.id = fileId := Table.get_key hf
    refine Law.wp_bind (Design.wp_require fun _ => Law.wp_bind (Design.wp_require fun hst => ?_))
    exact h w₁ f hf (of_decide_eq_true hst)

theorem Service.obliged (x : Service) :
    Obliged cfg mode ok i (x.program cfg) ⟨∅, id, b, w⟩ fun v r => r.Holds v.world.1 := by
  cases x with
  | upload user originalName mimeType sizeBytes purpose sha256 id' =>
    exact Law.wp_bind (Law.wp_mono createUpload_wp fun _ _ _ => trivial)
  | put file bytes => exact Law.wp_bind (Law.wp_mono putUpload_wp fun _ _ _ => trivial)
  | complete user file event now =>
    exact Law.wp_bind (Law.wp_mono completeUpload_wp fun _ _ _ => trivial)
  | drain limit =>
    refine Law.wp_bind (Law.wp_bind (Design.frames.wp_select fun w₁ _ => ?_))
    exact Law.wp_mono processScanEvents_wp fun _ _ _ => trivial
  | download user file authorized =>
    exact Law.wp_bind (createDownload_wp fun w' f hf hst => ⟨hf, hst⟩)

theorem keeps_storage (hd : Consistent d) :
    ((fileDesign cfg).law mode ok).Keeps (fun _ w r => r.Holds w.1) (storage cfg d services) :=
  Law.Keeps.init hd fun i => (services i).obliged

theorem keeps_of_run (hd : Consistent d) (hr : Sys.Run mode ok (storage cfg d services) s) :
    ((fileDesign cfg).law mode ok).Keeps (fun _ w r => r.Holds w.1) s :=
  (keeps_storage hd).run hr

/-! ## Final statuses -/

theorem Frame.final {held : Set LockName} (h : Frame held d d') (hf : d.file? f.id = some f)
    (hst : f.status.final = true) : d'.file? f.id = some f := by
  obtain ⟨y, hy, hadv⟩ := h.files.keep _ f hf
  rwa [hadv.final hst] at hy

/-- A row that is safe or rejected is never changed. -/
theorem final_stays (hs : ((fileDesign cfg).law mode ok).Holds s) (hr : Sys.Run mode ok s s')
    (hf : f ∈ s.db.files) (hst : f.status.final = true) : f ∈ s'.db.files := by
  have hrow : s'.db.file? f.id = some f := by
    refine Design.keeps_of_run (D := fileDesign cfg)
      (P := fun d _ => d.file? f.id = some f) hs hr ?_
      (fun _ _ _ _ _ _ _ _ h => h.elim) (Table.get_of_mem hs.inv hf)
    intro i c d d' e _ hc hrow
    exact hc.frame.final hrow hst
  exact Table.get_mem hrow

theorem download_safe (hd : Consistent d) (hr : Sys.Run mode ok (storage cfg d services) s)
    (hend : s.Ended i (.ok (.download f))) : f ∈ s.db.files ∧ f.status = .safe := by
  obtain ⟨w, hw, hrow, hst⟩ := (keeps_of_run hd hr).result hend
  have hframe : Frame ∅ w.1 s.db := Design.frames.sees hw
  exact ⟨Table.get_mem (hframe.final hrow (by rw [hst]; rfl)), hst⟩

/-! ## The objects of safe files -/

theorem object?_putObject (o : StoredObject) (k : ObjectKey) :
    (d.putObject o).object? k = if o.key = k then some o else d.object? k := Table.get_cons

theorem verdict_safe {bytes : Bytes} (h : (verdict cfg f bytes).safe = true) :
    verdict cfg f bytes = scan cfg bytes f.mimeType := by
  unfold verdict at h ⊢
  cases hs : f.sha256 with
  | none => rfl
  | some announced =>
    rw [hs] at h
    dsimp only at h ⊢
    split
    · rename_i hne
      rw [if_pos hne] at h
      cases h
    · rfl

theorem scan_sha256 (cfg : Settings) (bytes : Bytes) (mimeType : String) :
    (scan cfg bytes mimeType).sha256 = cfg.sha256 bytes := by
  unfold scan
  dsimp only
  split
  · rfl
  · unfold clamavResult
    dsimp only
    split
    · rfl
    · split
      · rfl
      · split <;> rfl

/-- A change of one row that is not safe after it. -/
theorem ServesScanned.modifyFile {id : FileId} {g : FileObject → FileObject}
    (h : ServesScanned cfg d)
    (hg : ∀ x ∈ d.files, x.id = id → (g x).status = .safe →
      ∃ o, d.object? (g x).objectKey = some o ∧
      (g x).sha256 = some (cfg.sha256 o.bytes) ∧ (scan cfg o.bytes (g x).mimeType).safe = true) :
    ServesScanned cfg (d.modifyFile id g) := by
  intro y hy hst
  obtain ⟨x, hx, rfl⟩ := Table.mem_modify.1 hy
  by_cases hid : x.id = id
  · rw [if_pos hid] at hst ⊢
    exact hg x hx hid hst
  · rw [if_neg hid] at hst ⊢
    exact h x hx hst

theorem Effect.servesScanned {held : Set LockName} {c : CommitPoint} {e : Unit} (hd : Consistent d)
    (he : Effect cfg held d c d') (hok : unreplaced cfg (.stmt i (.commit c) d d' e) = true)
    (h : ServesScanned cfg d) : ServesScanned cfg d' := by
  cases he with
  | reserved f hst =>
    intro g hg hsafe
    rcases List.mem_cons.1 hg with rfl | hg
    · rw [hst] at hsafe
      cases hsafe
    · exact h g hg hsafe
  | put o =>
    intro g hg hsafe
    obtain ⟨o', ho', hrest⟩ := h g hg hsafe
    refine ⟨o', ?_, hrest⟩
    rw [object?_putObject]
    split
    · rename_i hk
      have hput := List.all_eq_true.1 hok g hg
      simp only [hk.symm, hsafe, ne_eq, not_true_eq_false, decide_false, Bool.false_or,
        decide_eq_true_eq] at hput
      rw [← hput, ← ho', hk]
    · exact ho'
  | mismatched f hx hst => exact h.modifyFile fun x _ _ hsafe => by cases hsafe
  | completed f e hx hst =>
    have hmod : ServesScanned cfg (d.modifyFile f.id .startScan) :=
      h.modifyFile fun x _ _ hsafe => by cases hsafe
    exact hmod
  | skipped r => exact h
  | scanned f o r hx hst ho =>
    have hmod : ServesScanned cfg (d.modifyFile f.id (.judge (verdict cfg f o.bytes))) := by
      refine h.modifyFile fun x hxm hid hsafe => ?_
      obtain rfl : x = f := Option.some.inj ((Table.get_of_mem hd hxm).symm.trans (hid ▸ hx.row))
      have hv : (verdict cfg x o.bytes).safe = true := by
        by_contra hno
        simp [FileObject.judge, hno] at hsafe
      have hobj : d.object? x.objectKey = some o := by simpa [unreplaced, hv] using hok
      refine ⟨o, hobj, ?_, ?_⟩
      · change some (verdict cfg x o.bytes).sha256 = _
        rw [verdict_safe hv, scan_sha256]
      · rw [verdict_safe hv] at hv
        exact hv
    exact hmod

/-- **Only scanned content is served**, in every run in which no put replaces what a scan has read;
and in every run, a safe or rejected file stays so. -/
theorem scanned_served (hd : d.files = []) (hr : Sys.Run mode ok (storage cfg d services) s) :
    ((∀ mv, ok mv → unreplaced cfg mv = true) → ServesScanned cfg s.db) ∧
    (∀ s', Sys.Run mode ok s s' → ∀ f ∈ s.db.files, f.status = .safe ∨ f.status = .rejected →
      f ∈ s'.db.files) ∧
    ∀ i f, s.Ended i (.ok (.download f)) → f ∈ s.db.files ∧ f.status = .safe := by
  have hcons : Consistent d := by simp [Consistent, hd]
  refine ⟨fun hok => ?_, fun s' hr' f hf hst => ?_, fun i f hend => download_safe hcons hr hend⟩
  · refine Design.keeps_of_run (D := fileDesign cfg) (P := fun d _ => ServesScanned cfg d)
      (keeps_storage hcons).holds hr ?_ (fun _ _ _ _ _ _ _ _ h => h.elim) ?_
    · intro i c d d' e hmv hc h
      obtain ⟨held, heff⟩ := hc.effect
      exact heff.servesScanned hc.inv (hok _ hmv) h
    · intro f hf
      change f ∈ d.files at hf
      rw [hd] at hf
      cases hf
  · refine final_stays (keeps_of_run hcons hr).holds hr' hf ?_
    rcases hst with hst | hst <;> rw [hst] <;> rfl

end

/-! ## A put after the scan -/

def scannedBytes : Bytes := "ok".toUTF8.toList

def laterBytes : Bytes := "evil".toUTF8.toList

def basicSettings : Settings where
  maxUploadBytes := 10485760
  scannerMode := "basic"
  sha256 bytes :=
    if bytes = scannedBytes then "2689367b205c16ce32ed4200942b8b8b1e262dfc70d9bc9fbc77c49699a4f1df"
    else "b5c1fb2efc6d6b4674c2fdcc48ce01b43a3b7c03763c0c3355de0099ee0f8c73"
  clamav _ := ""

/-- An upload, its scan, a download, and another put through the same URL. -/
def someServices : Nat → Service
  | 0 => .upload 1 "a.txt" "text/plain" 2 "MESSAGE_ATTACHMENT" none 1
  | 1 => .put 1 scannedBytes
  | 2 => .complete 1 1 2 10
  | 3 => .drain 50
  | 4 => .download 1 1 false
  | _ => .put 1 laterBytes

def noFiles : Db := ⟨[], [], [], []⟩

def safeFile : FileObject :=
  ⟨1, 1, ⟨1, 1, "a.txt"⟩, "text/plain", 2,
    some "2689367b205c16ce32ed4200942b8b8b1e262dfc70d9bc9fbc77c49699a4f1df",
    .messageAttachment, .safe, none⟩

/-- The URL of the upload still puts, and the store serves what nobody has scanned. -/
theorem replaced_after_scan :
    ¬ ∀ (cfg : Settings) (d : Db) (services : Nat → Service) (s : Storage),
    d.files = [] → Sys.Run .readCommitted (fun _ => True) (storage cfg d services) s →
      ServesScanned cfg s.db := by
  intro h
  obtain ⟨s, hr, hs⟩ := Sys.exists_free_run .readCommitted
    (storage basicSettings noFiles someServices)
    (Sys.goes 0 4 ++ Sys.goes 1 3 ++ Sys.goes 2 6 ++ Sys.goes 3 9 ++ Sys.goes 5 3)
    (fun s => decide (s.db.files = [safeFile]) &&
      decide ((s.db.object? safeFile.objectKey).map StoredObject.bytes = some laterBytes))
    (by decide +kernel)
  obtain ⟨hf, ho⟩ := Bool.and_eq_true_iff.1 hs
  obtain ⟨o, hobj, hsha, -⟩ := h basicSettings noFiles someServices s rfl hr
    safeFile (by simp [of_decide_eq_true hf]) rfl
  have ho := of_decide_eq_true ho
  rw [hobj] at ho
  rw [show o.bytes = laterBytes from Option.some.inj ho] at hsha
  exact absurd hsha (by decide +kernel)

theorem scanned_served_one_upload :
    ∃ s : Storage, s.db.files = [safeFile] ∧ ServesScanned basicSettings s.db := by
  obtain ⟨s, hr, hs⟩ := Sys.exists_run .readCommitted
    (storage basicSettings noFiles someServices) (unreplaced basicSettings)
    (Sys.goes 0 4 ++ Sys.goes 1 3 ++ Sys.goes 2 6 ++ Sys.goes 3 9 ++ Sys.goes 4 1)
    (fun s => s.db.files = [safeFile]) (by decide +kernel)
  exact ⟨s, of_decide_eq_true hs, (scanned_served rfl hr).1 fun _ h => h⟩

end Files
