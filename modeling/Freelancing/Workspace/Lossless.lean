import Freelancing.Workspace.View
import Freelancing.Sequence

/-!
# What the view has lost

Every displayed message is one of the server's up to `latestSequence`, in order and once each
(`Valid`). The view is lossless when it displays all of these. The polls and the initial load bring
whole ranges, a realtime delivery and an own send one message: a run is lossless exactly when none
of them moves the cursor past a message that is not on display.
-/

namespace Workspace

section
variable {U l cur inc : List Message} {m x y : Message}

/-! ## Merging -/

theorem eq_of_id (hU : (U.map Message.id).Nodup) (hx : x ∈ U) (hy : y ∈ U) (h : x.id = y.id) :
    x = y := List.inj_on_of_nodup_map hU hx hy h

theorem mem_upsert (hU : (U.map Message.id).Nodup) (hl : ∀ x ∈ l, x ∈ U) (hm : m ∈ U) :
    x ∈ upsert l m ↔ x ∈ l ∨ x = m := by
  unfold upsert
  split
  case isTrue hany =>
    have hmap : (l.map fun x => if x.id = m.id then m else x) = l := by
      conv_rhs => rw [← List.map_id l]
      refine List.map_congr_left fun y hy => ?_
      split
      · rename_i hid
        exact (eq_of_id hU (hl y hy) hm hid).symm
      · rfl
    obtain ⟨y, hy, hid⟩ := List.any_eq_true.1 hany
    obtain rfl := eq_of_id hU (hl y hy) hm (of_decide_eq_true hid)
    rw [hmap]
    constructor
    · exact .inl
    · intro h
      rcases h with h | rfl
      · exact h
      · exact hy
  case isFalse => simp

theorem nodup_upsert (h : (l.map Message.id).Nodup) : ((upsert l m).map Message.id).Nodup := by
  unfold upsert
  split
  · have hmap : (l.map fun x => if x.id = m.id then m else x).map Message.id =
        l.map Message.id := by
      rw [List.map_map]
      refine List.map_congr_left fun y _ => ?_
      by_cases hy : y.id = m.id <;> simp [hy]
    rwa [hmap]
  · rename_i hany
    rw [List.map_append, List.nodup_append]
    refine ⟨h, List.nodup_singleton _, fun a ha b hb he => hany ?_⟩
    obtain ⟨y, hy, rfl⟩ := List.mem_map.1 ha
    rw [List.map_singleton, List.mem_singleton] at hb
    exact List.any_eq_true.2 ⟨y, hy, by simpa using he.trans hb⟩

theorem mem_foldl_upsert (hU : (U.map Message.id).Nodup) (hinc : ∀ x ∈ inc, x ∈ U)
    (hl : ∀ x ∈ l, x ∈ U) : x ∈ inc.foldl upsert l ↔ x ∈ l ∨ x ∈ inc := by
  induction inc generalizing l with
  | nil => simp
  | cons m inc ih =>
    have hm := hinc m List.mem_cons_self
    have hup : ∀ x ∈ upsert l m, x ∈ U := fun x hx => by
      rcases (mem_upsert hU hl hm).1 hx with hx | rfl
      · exact hl x hx
      · exact hm
    rw [List.foldl_cons, ih (fun x hx => hinc x (List.mem_cons_of_mem _ hx)) hup,
      mem_upsert hU hl hm, List.mem_cons, or_assoc]

theorem nodup_foldl_upsert (h : (l.map Message.id).Nodup) :
    ((inc.foldl upsert l).map Message.id).Nodup := by
  induction inc generalizing l with
  | nil => exact h
  | cons m inc ih => exact ih (nodup_upsert h)

/-- Of the server's messages, a merge has those of both lists. -/
theorem mem_mergeMessages (hU : (U.map Message.id).Nodup) (hcur : ∀ x ∈ cur, x ∈ U)
    (hinc : ∀ x ∈ inc, x ∈ U) : x ∈ mergeMessages cur inc ↔ x ∈ cur ∨ x ∈ inc := by
  have hfirst : ∀ x, x ∈ cur.foldl upsert [] ↔ x ∈ cur := fun x => by
    rw [mem_foldl_upsert hU hcur (by simp)]
    simp
  rw [mergeMessages, sortBySequence, (List.perm_insertionSort _ _).mem_iff,
    mem_foldl_upsert hU hinc fun x hx => hcur x ((hfirst x).1 hx), hfirst]

theorem nodup_mergeMessages : ((mergeMessages cur inc).map Message.id).Nodup := by
  refine (((List.perm_insertionSort _ _).map _).nodup_iff).2 ?_
  exact nodup_foldl_upsert (nodup_foldl_upsert List.nodup_nil)

theorem sorted_mergeMessages :
    (mergeMessages cur inc).Pairwise fun x y => x.sequence ≤ y.sequence := by
  have : Std.Total (fun x y : Message => x.sequence ≤ y.sequence) := ⟨fun x y => Nat.le_total _ _⟩
  have : IsTrans Message (fun x y => x.sequence ≤ y.sequence) := ⟨fun x y z => Nat.le_trans⟩
  exact List.pairwise_insertionSort _ _

end

/-! ## Valid states -/

/-- The server's messages are numbered from 1. -/
structure Numbered (server : List Message) : Prop where
  sequences : server.map Message.sequence = List.range' 1 server.length
  ids : (server.map Message.id).Nodup

/-- The list on display. -/
structure Displayed (server : List Message) (v : View) : Prop where
  sorted : v.messages.Pairwise fun x y => x.sequence ≤ y.sequence
  nodup : (v.messages.map Message.id).Nodup
  stored : ∀ m ∈ v.messages, m ∈ server
  upTo : ∀ m ∈ v.messages, m.sequence ≤ v.latestSequence
  latest : v.latestSequence ≤ server.length

structure Valid (s : State) : Prop where
  server : Numbered s.server
  view : Displayed s.server s.view

/-- Every message up to the cursor is on display. -/
def View.Lossless (server : List Message) (v : View) : Prop :=
  ∀ m ∈ server, m.sequence ≤ v.latestSequence → m ∈ v.messages

/-- The items are the server's messages from the one after `after` on, as many as they are. -/
structure FollowOn (server : List Message) (after : Nat) (items : List Message) : Prop where
  stored : items.Sublist server
  numbers : items.map Message.sequence = List.range' (after + 1) items.length

/-- The cursor is not moved past a message that the view lacks. -/
def contiguous (s : State) : Event → Bool
  | .realtime m => m.sequence ≤ s.view.latestSequence + 1
  | .sent m => m.sequence ≤ s.view.latestSequence + 1
  | .polled p served => p.after ≤ s.view.latestSequence ||
      (listMessages (s.server.take served) p.after).isEmpty
  | _ => true

section
variable {server items : List Message} {v : View} {s s' : State} {m x : Message}
  {after served n : Nat}

theorem Numbered.getElem? (h : Numbered server) (hm : m ∈ server) :
    1 ≤ m.sequence ∧ m.sequence ≤ server.length ∧ server[m.sequence - 1]? = some m := by
  obtain ⟨i, hi, rfl⟩ := List.mem_iff_getElem.1 hm
  have hseq : (server[i]).sequence = i + 1 := by
    have := congrArg (fun l => l[i]?) h.sequences
    simpa [hi, Nat.add_comm] using this
  rw [hseq]
  exact ⟨Nat.le_add_left 1 i, hi, by simp [hi]⟩

/-- The message of a number. -/
theorem Numbered.exists (h : Numbered server) (h1 : 1 ≤ n) (hn : n ≤ server.length) :
    ∃ m ∈ server, m.sequence = n := by
  have : n ∈ server.map Message.sequence := by
    rw [h.sequences, List.mem_range'_1]
    omega
  obtain ⟨m, hm, he⟩ := List.mem_map.1 this
  exact ⟨m, hm, he⟩

theorem Numbered.inj (h : Numbered server) (hm : m ∈ server) (hx : x ∈ server)
    (he : m.sequence = x.sequence) : m = x := by
  have hm' := (h.getElem? hm).2.2
  rw [he, (h.getElem? hx).2.2] at hm'
  exact (Option.some.inj hm').symm

theorem Numbered.append (h : Numbered server) (hseq : m.sequence = server.length + 1)
    (hid : ∀ x ∈ server, x.id ≠ m.id) : Numbered (server ++ [m]) where
  sequences := by
    rw [List.map_append, h.sequences, List.length_append, List.map_singleton, hseq,
      List.length_singleton, List.range'_1_concat, Nat.add_comm 1]
  ids := by
    rw [List.map_append, List.nodup_append]
    refine ⟨h.ids, List.nodup_singleton _, fun a ha b hb he => ?_⟩
    obtain ⟨x, hx, rfl⟩ := List.mem_map.1 ha
    rw [List.map_singleton, List.mem_singleton] at hb
    exact hid x hx (he.trans hb)

/-! ## Answers -/

theorem FollowOn.mem (h : FollowOn server after items) (hs : Numbered server) :
    m ∈ items ↔ m ∈ server ∧ after < m.sequence ∧ m.sequence ≤ after + items.length := by
  constructor
  · intro hm
    have hseq : m.sequence ∈ items.map Message.sequence := List.mem_map_of_mem hm
    rw [h.numbers, List.mem_range'_1] at hseq
    exact ⟨h.stored.mem hm, by omega, by omega⟩
  · rintro ⟨hm, hlo, hhi⟩
    have hseq : m.sequence ∈ items.map Message.sequence := by
      rw [h.numbers, List.mem_range'_1]
      omega
    obtain ⟨x, hx, he⟩ := List.mem_map.1 hseq
    rwa [hs.inj hm (h.stored.mem hx) he.symm]

theorem FollowOn.last (h : FollowOn server after items) :
    (items.getLast?.map Message.sequence).getD after = after + items.length := by
  rw [← List.getLast?_map, h.numbers, List.getLast?_range']
  split
  · rename_i hzero
    rw [hzero]
    rfl
  · simp only [Option.getD_some]
    omega

theorem FollowOn.sorted (h : FollowOn server after items) :
    items.Pairwise fun x y => x.sequence ≤ y.sequence := by
  have hlt : (items.map Message.sequence).Pairwise (· < ·) := by
    rw [h.numbers]
    exact List.pairwise_lt_range'
  exact (List.pairwise_map.1 hlt).imp fun h => Nat.le_of_lt h

/-- An answer of the server is a range of its messages. -/
theorem followOn_listMessages (hs : Numbered server) :
    FollowOn server after (listMessages (server.take served) after) where
  stored := (List.take_sublist _ _).trans ((List.filter_sublist).trans (List.take_sublist _ _))
  numbers := by
    have htake : (server.take served).map Message.sequence =
        List.range' 1 (min served server.length) := by
      rw [List.map_take, hs.sequences, Sequence.take_range']
    obtain ⟨j, hj⟩ := Sequence.filter_take_range' after (min served server.length)
    have hfilter : ((server.take served).filter fun m => after < m.sequence).map Message.sequence =
        List.range' (after + 1) j := by
      rw [← hj, ← htake, List.filter_map]
      rfl
    have hnum : (listMessages (server.take served) after).map Message.sequence =
        List.range' (after + 1) (min 100 j) := by
      rw [listMessages, List.map_take, hfilter, Sequence.take_range']
    have hlen := congrArg List.length hnum
    rw [List.length_map, List.length_range'] at hlen
    rw [hnum, hlen]

/-! ## The view -/

theorem View.merge_eq (hne : items ≠ []) : v.merge after items =
    ⟨mergeMessages v.messages items,
      max v.latestSequence ((items.getLast?.map Message.sequence).getD after)⟩ := by
  unfold View.merge
  rw [if_neg (by simpa using hne)]

/-- A single message is a range of one. -/
theorem View.add_eq (m : Message) : v.add m = v.merge (m.sequence - 1) [m] := rfl

theorem followOn_single (hs : Numbered server) (hm : m ∈ server) :
    FollowOn server (m.sequence - 1) [m] where
  stored := List.singleton_sublist.2 hm
  numbers := by
    obtain ⟨h1, -, -⟩ := hs.getElem? hm
    simp only [List.map_singleton, List.length_singleton, List.range'_one,
      List.cons.injEq, and_true]
    omega

theorem View.displayed_load (hs : Numbered server) (hi : FollowOn server 0 items) :
    Displayed server (.load items) := by
  have hlast : (View.load items).latestSequence = items.length := by
    rw [View.load, hi.last, Nat.zero_add]
  refine ⟨hi.sorted, hs.ids.sublist (hi.stored.map _), fun m hm => hi.stored.mem hm,
    fun m hm => ?_, ?_⟩
  · have := ((hi.mem hs).1 hm).2.2
    omega
  · rw [hlast]
    exact hi.stored.length_le

theorem View.lossless_load (hs : Numbered server) (hi : FollowOn server 0 items) :
    (View.load items).Lossless server := by
  intro m hm hle
  obtain ⟨h1, -, -⟩ := hs.getElem? hm
  rw [View.load, hi.last] at hle
  exact (hi.mem hs).2 ⟨hm, h1, hle⟩

theorem Displayed.merge (h : Displayed server v) (hs : Numbered server)
    (hi : FollowOn server after items) : Displayed server (v.merge after items) := by
  by_cases hne : items = []
  · rw [View.merge, if_pos (by simp [hne])]
    exact h
  · rw [View.merge_eq hne, hi.last]
    have hmem : ∀ x, x ∈ mergeMessages v.messages items ↔ x ∈ v.messages ∨ x ∈ items := fun x =>
      mem_mergeMessages hs.ids h.stored fun x hx => hi.stored.mem hx
    refine ⟨sorted_mergeMessages, nodup_mergeMessages, fun m hm => ?_, fun m hm => ?_, ?_⟩
    · rcases (hmem m).1 hm with hm | hm
      · exact h.stored m hm
      · exact hi.stored.mem hm
    · rcases (hmem m).1 hm with hm | hm
      · exact Nat.le_trans (h.upTo m hm) (Nat.le_max_left _ _)
      · exact Nat.le_trans ((hi.mem hs).1 hm).2.2 (Nat.le_max_right _ _)
    · -- the last item is one of the server's messages
      have htop : after + items.length ∈ items.map Message.sequence := by
        have := List.length_pos_iff.2 hne
        rw [hi.numbers, List.mem_range'_1]
        omega
      obtain ⟨x, hx, he⟩ := List.mem_map.1 htop
      have := (hs.getElem? (hi.stored.mem hx)).2.1
      exact max_le h.latest (he ▸ this)

/-- **A range keeps the view lossless exactly when it begins at or before the cursor.** -/
theorem Displayed.lossless_merge (h : Displayed server v) (hs : Numbered server)
    (hv : v.Lossless server) (hi : FollowOn server after items) (hne : items ≠ []) :
    (v.merge after items).Lossless server ↔ after ≤ v.latestSequence := by
  have hmem : ∀ x, x ∈ mergeMessages v.messages items ↔ x ∈ v.messages ∨ x ∈ items := fun x =>
    mem_mergeMessages hs.ids h.stored fun x hx => hi.stored.mem hx
  rw [View.merge_eq hne, hi.last]
  constructor
  · -- otherwise the message after the cursor is missing
    intro hloss
    by_contra hlt
    obtain ⟨first, rest, rfl⟩ := List.exists_cons_of_ne_nil hne
    obtain ⟨hfirst, hlo, -⟩ := (hi.mem hs).1 List.mem_cons_self
    have hlen := (hs.getElem? hfirst).2.1
    obtain ⟨m, hm, he⟩ := hs.exists (Nat.le_add_left 1 v.latestSequence) (by omega)
    have hreached : m.sequence ≤ max v.latestSequence (after + (first :: rest).length) := by
      rw [he, List.length_cons]
      omega
    have hgot := hloss m hm hreached
    rcases (hmem m).1 hgot with hold | hnew
    · have := h.upTo m hold
      omega
    · have := ((hi.mem hs).1 hnew).2.1
      omega
  · intro hle m hm hlatest
    refine (hmem m).2 ?_
    by_cases hold : m.sequence ≤ v.latestSequence
    · exact .inl (hv m hm hold)
    · refine .inr ((hi.mem hs).2 ⟨hm, by omega, ?_⟩)
      have : m.sequence ≤ max v.latestSequence (after + items.length) := hlatest
      omega

/-! ## Steps -/

theorem Displayed.append (h : Displayed server v) : Displayed (server ++ [m]) v where
  sorted := h.sorted
  nodup := h.nodup
  stored x hx := List.mem_append_left _ (h.stored x hx)
  upTo := h.upTo
  latest := by
    rw [List.length_append]
    exact Nat.le_add_right_of_le h.latest

theorem Valid.step (h : Valid s) {e : Event} (hs : s.step? e = some s') : Valid s' := by
  cases e with
  | stored m =>
    simp only [State.step?, Option.ite_none_right_eq_some, Bool.and_eq_true, decide_eq_true_eq,
      List.all_eq_true, ne_eq, Option.some.injEq] at hs
    obtain ⟨⟨hseq, hid⟩, rfl⟩ := hs
    exact ⟨h.server.append hseq hid, h.view.append⟩
  | connection live =>
    cases hs
    exact ⟨h.server, h.view⟩
  | loadSent =>
    cases hs
    exact ⟨h.server, h.view⟩
  | loaded served =>
    dsimp only [State.step?] at hs
    split at hs
    · cases hs
    · split at hs
      · cases hs
        exact ⟨h.server, View.displayed_load h.server (followOn_listMessages h.server)⟩
      · cases hs
  | loadFailed =>
    cases hs
    exact ⟨h.server, h.view⟩
  | realtime m =>
    simp only [State.step?, Option.ite_none_right_eq_some, Option.some.injEq] at hs
    obtain ⟨hm, rfl⟩ := hs
    exact ⟨h.server, h.view.merge h.server (followOn_single h.server hm)⟩
  | pollSent =>
    simp only [State.step?, Option.ite_none_left_eq_some, Option.some.injEq] at hs
    obtain ⟨-, rfl⟩ := hs
    exact ⟨h.server, h.view⟩
  | polled p served =>
    simp only [State.step?, Option.ite_none_right_eq_some, Option.some.injEq] at hs
    obtain ⟨-, rfl⟩ := hs
    exact ⟨h.server, h.view.merge h.server (followOn_listMessages h.server)⟩
  | pollFailed p =>
    cases hs
    exact ⟨h.server, h.view⟩
  | sent m =>
    simp only [State.step?, Option.ite_none_right_eq_some, Option.some.injEq] at hs
    obtain ⟨hm, rfl⟩ := hs
    exact ⟨h.server, h.view.merge h.server (followOn_single h.server hm)⟩

theorem lossless_add (h : Valid s) (hv : s.view.Lossless s.server) (hm : m ∈ s.server) :
    (s.view.add m).Lossless s.server ↔ m.sequence ≤ s.view.latestSequence + 1 := by
  rw [View.add_eq, h.view.lossless_merge h.server hv (followOn_single h.server hm) (by simp)]
  omega

/-- What a step does to a lossless view. -/
theorem Valid.step_lossless (h : Valid s) (hv : s.view.Lossless s.server) {e : Event}
    (hs : s.step? e = some s') : s'.view.Lossless s'.server ↔ contiguous s e = true := by
  cases e with
  | stored m =>
    simp only [State.step?, Option.ite_none_right_eq_some, Bool.and_eq_true, decide_eq_true_eq,
      List.all_eq_true, ne_eq, Option.some.injEq] at hs
    obtain ⟨⟨hseq, hid⟩, rfl⟩ := hs
    refine iff_of_true (fun x hx hle => ?_) rfl
    rcases List.mem_append.1 hx with hx | hx
    · exact hv x hx hle
    · obtain rfl := List.mem_singleton.1 hx
      have := h.view.latest
      dsimp only at hle
      omega
  | connection live =>
    cases hs
    exact iff_of_true hv rfl
  | loadSent =>
    cases hs
    exact iff_of_true hv rfl
  | loaded served =>
    dsimp only [State.step?] at hs
    split at hs
    · cases hs
    · split at hs
      · cases hs
        exact iff_of_true (View.lossless_load h.server (followOn_listMessages h.server)) rfl
      · cases hs
  | loadFailed =>
    cases hs
    exact iff_of_true hv rfl
  | realtime m =>
    simp only [State.step?, Option.ite_none_right_eq_some, Option.some.injEq] at hs
    obtain ⟨hm, rfl⟩ := hs
    rw [lossless_add h hv hm, contiguous, decide_eq_true_eq]
  | pollSent =>
    simp only [State.step?, Option.ite_none_left_eq_some, Option.some.injEq] at hs
    obtain ⟨-, rfl⟩ := hs
    exact iff_of_true hv rfl
  | polled p served =>
    simp only [State.step?, Option.ite_none_right_eq_some, Option.some.injEq] at hs
    obtain ⟨-, rfl⟩ := hs
    rw [contiguous, Bool.or_eq_true, decide_eq_true_eq, List.isEmpty_iff]
    by_cases hne : listMessages (s.server.take served) p.after = []
    · refine iff_of_true ?_ (.inr hne)
      rw [View.merge, if_pos (by simp [hne])]
      exact hv
    · rw [h.view.lossless_merge h.server hv (followOn_listMessages h.server) hne]
      simp [hne]
  | pollFailed p =>
    cases hs
    exact iff_of_true hv rfl
  | sent m =>
    simp only [State.step?, Option.ite_none_right_eq_some, Option.some.injEq] at hs
    obtain ⟨hm, rfl⟩ := hs
    rw [lossless_add h hv hm, contiguous, decide_eq_true_eq]

/-! ## Runs -/

/-- What is displayed is sorted, without duplicates, and has every message up to the cursor. -/
def Faithful (s : State) : Prop :=
  s.view.Lossless s.server ∧ (s.view.messages.Pairwise fun x y => x.sequence ≤ y.sequence) ∧
    (s.view.messages.map Message.id).Nodup

theorem Valid.faithful_iff (h : Valid s) : Faithful s ↔ s.view.Lossless s.server :=
  ⟨fun hf => hf.1, fun hv => ⟨hv, h.view.sorted, h.view.nodup⟩⟩

theorem Valid.always_iff (h : Valid s) (hv : s.view.Lossless s.server) (events : List Event) :
    Always Faithful s events ↔ Meets contiguous s events := by
  induction events generalizing s with
  | nil => exact iff_of_true (h.faithful_iff.2 hv) trivial
  | cons e es ih =>
    constructor
    · rintro ⟨-, hall⟩ s' hs
      have hnext := hall s' hs
      have hv' : s'.view.Lossless s'.server := by
        cases es with
        | nil => exact hnext.1
        | cons => exact hnext.1.1
      exact ⟨(h.step_lossless hv hs).1 hv', (ih (h.step hs) hv').1 hnext⟩
    · intro hmeets
      refine ⟨h.faithful_iff.2 hv, fun s' hs => ?_⟩
      obtain ⟨hc, hrest⟩ := hmeets s' hs
      exact (ih (h.step hs) ((h.step_lossless hv hs).2 hc)).2 hrest

theorem valid_mount (h : Numbered server) : Valid (.mount server) :=
  ⟨h, .nil, List.nodup_nil, by simp [State.mount], by simp [State.mount], Nat.zero_le _⟩

/-- **The conversation view loses no message exactly in the runs that never move its cursor past a
gap.** -/
theorem never_loses_iff (h : Numbered server) (events : List Event) :
    Always Faithful (.mount server) events ↔ Meets contiguous (.mount server) events := by
  refine (valid_mount h).always_iff (fun m hm hle => ?_) events
  have := (h.getElem? hm).1
  change m.sequence ≤ 0 at hle
  omega

end

/-! ## A message that is skipped -/

def message (n : Nat) : Message := ⟨n, n, "hello"⟩

/-- The realtime delivery of message 2 is dropped, the next one arrives, and the poll asks for what
comes after it. -/
theorem realtime_skips : ¬ ∀ server events, Numbered server →
    Always Faithful (.mount server) events := by
  intro h
  have hall := h [message 1] [.loadSent, .loaded 1, .stored (message 2), .stored (message 3),
    .realtime (message 3), .pollSent, .polled ⟨3, 3⟩ 3] ⟨rfl, by decide⟩
  have hafter := (((((((hall.2 _ rfl).2 _ rfl).2 _ rfl).2 _ rfl).2 _ rfl).2 _ rfl).2 _ rfl).1
  have hshown := hafter (message 2) (by decide) (by decide)
  revert hshown
  decide

theorem never_loses_late_polls :
    Always Faithful (.mount [message 1]) [.pollSent, .loadSent, .loaded 1,
    .stored (message 2), .stored (message 3), .realtime (message 2), .pollSent,
    .realtime (message 3), .polled ⟨2, 3⟩ 3, .polled ⟨0, 1⟩ 2] :=
  (never_loses_iff ⟨rfl, by decide⟩ _).2 (by decide)

end Workspace
