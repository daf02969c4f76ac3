import Freelancing.Files.Uploads

/-!
# Obligations of the file services

A file's row moves under its own lock, from quarantined over scanning to safe or rejected, and stays
as it is then (`Frame.files`). Every commit is an `Effect`; a put changes the store whatever the
file's status is.
-/

namespace Files

open Money (UserId Err)
open Txn (Law Mode View Sys Design Prog)
open Txn.Service

abbrev Move := Txn.Move Db (Txn.Point CommitPoint) Empty Empty Unit

abbrev TxView := View Db LockName Unit

/-! ## Commits -/

/-- The status is never left. -/
def FileStatus.final : FileStatus → Bool
  | safe => true
  | rejected => true
  | _ => false

/-- The row may have become `y`. -/
structure FileObject.Advances (x y : FileObject) : Prop where
  id : y.id = x.id
  objectKey : y.objectKey = x.objectKey
  final : x.status.final = true → y = x

/-- The session has locked the row, which is as it has loaded it. -/
structure FileObject.Owned (held : Set LockName) (d : Db) (f : FileObject) : Prop where
  lock : .file f.id ∈ held
  row : d.file? f.id = some f

inductive Effect (cfg : Settings) (held : Set LockName) (d : Db) : CommitPoint → Db → Prop
  | reserved (f : FileObject) (hst : f.status = .quarantined) (hl : .file f.id ∈ held)
      (hid : d.file? f.id = none) : Effect cfg held d (.reserved f) (d.addFile f)
  | put (o : StoredObject) : Effect cfg held d (.put o) (d.putObject o)
  | mismatched (f : FileObject) (hx : f.Owned held d) (hst : f.status = .quarantined) :
      Effect cfg held d (.mismatched f) (d.modifyFile f.id .mismatch)
  | completed (f : FileObject) (e : ScanEvent) (hx : f.Owned held d)
      (hst : f.status = .quarantined) :
      Effect cfg held d (.completed f e) ((d.modifyFile f.id .startScan).addEvent e)
  | skipped (r : FileScanReceipt) : Effect cfg held d (.skipped r) (d.addReceipt r)
  | scanned (f : FileObject) (o : StoredObject) (r : FileScanReceipt) (hx : f.Owned held d)
      (hst : f.status = .scanning) (ho : o.key = f.objectKey) : Effect cfg held d (.scanned f o r)
        ((d.modifyFile f.id (.judge (verdict cfg f o.bytes))).addReceipt r)

structure Frame (held : Set LockName) (d d' : Db) : Prop where
  files : Table.Evolves FileObject.id (fun k => .file k ∈ held) FileObject.Advances d.files d'.files

def Consistent (d : Db) : Prop := (d.files.map FileObject.id).Nodup

section
variable {cfg : Settings} {held held' : Set LockName} {d d' d'' : Db} {c : CommitPoint}
  {f x y z : FileObject}

theorem FileObject.Advances.refl (x : FileObject) : x.Advances x := ⟨rfl, rfl, fun _ => rfl⟩

theorem FileObject.Advances.trans (h : x.Advances y) (h' : y.Advances z) : x.Advances z where
  id := h'.id.trans h.id
  objectKey := h'.objectKey.trans h.objectKey
  final hx := by
    obtain rfl := h.final hx
    exact h'.final hx

theorem FileObject.advances_of (y : FileObject) (hid : y.id = x.id) (hk : y.objectKey = x.objectKey)
    (hst : x.status.final = false) : x.Advances y :=
  ⟨hid, hk, fun h => by rw [hst] at h; cases h⟩

theorem Frame.refl (held : Set LockName) (d : Db) :
    Frame held d d := ⟨.refl FileObject.Advances.refl⟩

theorem Frame.trans (h : Frame held d d') (h' : Frame held d' d'') : Frame held d d'' :=
  ⟨h.files.trans (fun _ _ _ => .trans) h'.files⟩

theorem Frame.mono (hs : held' ⊆ held) (h : Frame held d d') : Frame held' d d' :=
  ⟨h.files.mono fun _ hk => hs hk⟩

theorem Frame.owned (h : Frame held d d') (hl : .file f.id ∈ held) (hf : d.file? f.id = some f) :
    f.Owned held d' := ⟨hl, (h.files.own _ hl).trans hf⟩

theorem FileObject.Owned.mono (hs : held ⊆ held') (h : f.Owned held d) : f.Owned held' d :=
  ⟨hs h.lock, h.row⟩

theorem modifyFile_frame {g : FileObject → FileObject} (hx : f.Owned held' d)
    (hg : ∀ x, (g x).id = x.id) (hk : (g f).objectKey = f.objectKey) (hst : f.status.final = false)
    (hdis : Disjoint held held') : Frame held d (d.modifyFile f.id g) where
  files := by
    refine .modify hg FileObject.Advances.refl (fun h => Set.disjoint_left.1 hdis h hx.lock) ?_
    intro x hfx
    obtain rfl := Option.some.inj (hfx.symm.trans hx.row)
    exact FileObject.advances_of _ (hg x) hk hst

theorem Effect.frame (h : Effect cfg held' d c d') (hdis : Disjoint held held') :
    Frame held d d' := by
  cases h with
  | reserved f hst hl hid =>
    exact ⟨.cons FileObject.Advances.refl (fun hh => Set.disjoint_left.1 hdis hh hl) hid⟩
  | put o => exact ⟨.refl FileObject.Advances.refl⟩
  | mismatched f hx hst => exact modifyFile_frame hx (fun _ => rfl) rfl (by rw [hst]; rfl) hdis
  | completed f e hx hst =>
    exact ⟨(modifyFile_frame (g := .startScan) hx (fun _ => rfl) rfl (by rw [hst]; rfl) hdis).files⟩
  | skipped r => exact ⟨.refl FileObject.Advances.refl⟩
  | scanned f o r hx hst ho =>
    exact ⟨(modifyFile_frame (g := .judge (verdict cfg f o.bytes)) hx (fun _ => rfl) rfl
      (by rw [hst]; rfl) hdis).files⟩

theorem Effect.consistent (hd : Consistent d) (h : Effect cfg held d c d') : Consistent d' :=
  (h.frame (Set.empty_disjoint _)).files.nodup hd

end

def fileDesign (cfg : Settings) : Design Db LockName CommitPoint Empty Empty Unit where
  Inv d _ := Consistent d
  Effect held c d d' _ := Effect cfg held d c d'
  Asks _ _ _ _ _ := False
  Frame := Frame
  refl := .refl
  trans := .trans
  mono := .mono
  frame _ h := h.frame
  keeps hd h := h.consistent hd
  asks _ h := h.elim

/-! ## Obligations -/

section
variable {cfg : Settings} {mode : Mode} {ok : Move → Prop} {i : Nat} {held : Set LockName}
  {pend : Db → Db} {b : Bool} {w : Db × Unit}

abbrev Obliged {β : Type} (cfg : Settings) (mode : Mode) (ok : Move → Prop) (i : Nat) (p : Tx β)
    (v : TxView) (Q : TxView → β → Prop) : Prop :=
  ((fileDesign cfg).law mode ok).wp i p v Q

abbrev Later (cfg : Settings) (mode : Mode) (ok : Move → Prop) := (fileDesign cfg).Later mode ok

theorem createUpload_wp {user : UserId} {originalName mimeType : String} {sizeBytes : Int}
    {purpose : String} {sha256 : Option String} {id' : FileId} :
    Obliged cfg mode ok i
      (createUpload cfg user originalName mimeType sizeBytes purpose sha256 id')
      ⟨∅, id, b, w⟩ fun _ _ => True := by
  unfold createUpload
  refine Law.wp_bind (Design.wp_require fun _ => Law.wp_bind (Design.wp_require fun _ => ?_))
  refine Law.wp_bind (Design.wp_require fun _ => ?_)
  split
  · trivial
  · refine Law.wp_bind (Design.wp_require fun _ => ?_)
    refine Law.wp_bind (Design.wp_reserve fun w₁ hw₁ hid => ?_)
    refine Law.wp_bind (Design.wp_reserve fun w₂ hw₂ _ => ?_)
    refine Law.wp_bind
      (Design.wp_write (Law.wp_bind (Design.wp_commit (fun w₃ hw₃ => ?_) fun _ _ _ => trivial)))
    refine .reserved _ rfl (by simp) ?_
    have hid₁ : w₁.1.file? id' = none := by simpa using hid
    exact (hw₃.frame.files.own _ (by simp)).trans ((hw₂.frame.files.own _ (by simp)).trans hid₁)

theorem putUpload_wp {fileId : FileId} {bytes : Bytes} :
    Obliged cfg mode ok i (putUpload fileId bytes) ⟨∅, id, b, w⟩ fun _ _ => True := by
  unfold putUpload
  refine Law.wp_bind (Design.frames.wp_select fun w₁ hw₁ => ?_)
  split
  · trivial
  · exact Law.wp_bind (Design.wp_write (Design.wp_commit (fun w₂ _ => .put _) fun _ _ _ => trivial))

theorem ownedFileForUpdate_wp {user : UserId} {fileId : FileId} {Q : TxView → FileObject → Prop}
    (h : ∀ w' f, Later cfg mode ok held b w w' → (pend w'.1).file? f.id = some f →
      Q ⟨insert (.file f.id) held, pend, mode.inTxn, w'⟩ f) :
    Obliged cfg mode ok i (ownedFileForUpdate user fileId) ⟨held, pend, b, w⟩ Q := by
  unfold ownedFileForUpdate
  refine Law.wp_bind
    (Design.frames.wp_selectForUpdate (fun w₁ hw₁ hn => trivial) fun w₁ f hw₁ hf => ?_)
  obtain rfl : f.id = fileId := Table.get_key hf
  exact Law.wp_bind (Design.wp_require fun _ => h w₁ f hw₁ hf)

theorem completeUpload_wp {user : UserId} {fileId : FileId} {eventId : EventId} {now : Nat} :
    Obliged cfg mode ok i (completeUpload user fileId eventId now)
      ⟨∅, id, b, w⟩ fun _ _ => True := by
  unfold completeUpload
  refine Law.wp_bind (ownedFileForUpdate_wp fun w₁ f hw₁ hf => ?_)
  have hl : LockName.file f.id ∈ insert (LockName.file f.id) (∅ : Set LockName) := .inl rfl
  cases hst : f.status with
  | safe => trivial
  | rejected => trivial
  | scanning => trivial
  | quarantined =>
    refine Law.wp_bind (Design.frames.wp_select fun w₂ hw₂ => ?_)
    have h₂ := hw₂.frame.owned hl hf
    split
    · trivial
    · split
      · refine Law.wp_bind
          (Design.wp_write (Law.wp_bind (Design.wp_commit (fun w₃ hw₃ => ?_) fun _ _ _ => trivial)))
        exact .mismatched f (hw₃.frame.owned hl h₂.row) hst
      · refine Law.wp_bind (Design.wp_write (Law.wp_bind (Design.wp_reserve fun w₃ hw₃ _ => ?_)))
        have h₃ := hw₃.frame.owned hl h₂.row
        refine Law.wp_bind
          (Design.wp_write (Law.wp_bind (Design.wp_commit (fun w₄ hw₄ => ?_) fun _ _ _ => trivial)))
        exact .completed f _ (hw₄.frame.owned (.inr hl) h₃.row) hst

theorem addReceipt_wp {receipt : FileScanReceipt} {point : CommitPoint} {Q : TxView → Bool → Prop}
    (hc : ∀ w' : Db × Unit, Frame held w.1 w'.1 →
      Effect cfg (insert (.receiptOf receipt.event) held) w'.1 point
        ((pend w'.1).addReceipt receipt))
    (h : ∀ w', Q ⟨∅, id, mode.inCall, w'⟩ true) :
    Obliged cfg mode ok i (addReceipt receipt point) ⟨held, pend, b, w⟩ Q := by
  unfold addReceipt
  refine Law.wp_bind (Design.wp_reserve fun w₁ hw₁ _ => ?_)
  refine Law.wp_bind
    (Design.wp_write (Law.wp_bind (Design.wp_commit (fun w₂ hw₂ => ?_) fun w₂ _ _ => ?_)))
  · exact hc w₂ (hw₁.frame.trans (hw₂.frame.mono (Set.subset_insert _ _)))
  · exact h _

theorem processScanEvent_wp {eventId : EventId} {Q : TxView → Bool → Prop}
    (h : ∀ held' b' w' r, Q ⟨held', id, b', w'⟩ r) :
    Obliged cfg mode ok i (processScanEvent cfg eventId) ⟨held, id, b, w⟩ Q := by
  unfold processScanEvent
  refine Law.wp_bind (Design.frames.wp_selectForUpdate (fun w₁ _ _ => h _ _ _ _)
    fun w₁ event hw₁ hevent => ?_)
  refine Law.wp_bind (Design.frames.wp_select fun w₂ hw₂ => ?_)
  split
  · exact h _ _ _ _
  · refine Law.wp_bind
      (Design.frames.wp_selectForUpdate (fun w₃ hw₃ _ => trivial) fun w₃ f hw₃ hf => ?_)
    obtain hid : f.id = event.file := Table.get_key hf
    have hl : LockName.file f.id ∈ insert (LockName.file f.id)
      (insert (LockName.event event.id) held) := .inl rfl
    have hrow : w₃.1.file? f.id = some f := hid ▸ hf
    dsimp only
    split
    · exact addReceipt_wp (fun w₄ _ => .skipped _) fun w₄ => h _ _ _ _
    · rename_i hst
      refine Law.wp_bind (Design.wp_require fun _ => ?_)
      refine Law.wp_bind (Design.frames.wp_select fun w₄ hw₄ => ?_)
      have h₄ := hw₄.frame.owned hl hrow
      split
      · trivial
      · rename_i o ho
        refine Law.wp_bind (Design.wp_write (addReceipt_wp (fun w₅ hf₅ => ?_) fun w₅ => h _ _ _ _))
        exact .scanned f o _ ((hf₅.owned hl h₄.row).mono (Set.subset_insert _ _))
          (Decidable.not_not.1 hst) (Table.get_key ho)

theorem processScanEvents_wp {eventIds : List EventId} {processed : Nat} :
    Obliged cfg mode ok i (processScanEvents cfg eventIds processed) ⟨held, id, b, w⟩
      fun _ _ => True := by
  induction eventIds generalizing processed held b w with
  | nil => trivial
  | cons eventId eventIds ih =>
    unfold processScanEvents
    exact Law.wp_bind (processScanEvent_wp fun held' b' w' r => ih)

end

end Files
