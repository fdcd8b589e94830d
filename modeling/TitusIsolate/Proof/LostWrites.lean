import TitusIsolate.Proof.LastResponse
import TitusIsolate.Proof.Writes

/-!
# Writes that are lost

A write that fails is swallowed, and the file keeps what it had. The write is lost unless
that was what it would have written. `lostBy` records, file by file, whether the last
write made for it was lost. A call sets the record right about its own file whatever its
outcome is (`tracks_perform`), so after calls that write different files the record is
right about all of them.
-/

namespace TitusIsolate

/-! ## Calls of an allocation -/

namespace WorkloadAllocateResponse

/-- What an allocation puts in each of its container's files. -/
def setting (a : WorkloadAllocateResponse) : CgroupFile → String
  | .cpuset => getThreadIdsStr a.threadIds
  | .quota => toString a.cpuQuota
  | .shares => toString a.cpuShares
  | .memoryMigrate => strOfBool a.memoryMigrate
  | .memorySpreadPage => strOfBool a.memorySpreadPage
  | .memorySpreadSlab => strOfBool a.memorySpreadSlab

/-- The call that puts it there. -/
def callFor (a : WorkloadAllocateResponse) : CgroupFile → CgroupCall
  | .cpuset => .setCpuset a.workloadId a.threadIds
  | .quota => .setQuota a.workloadId a.cpuQuota
  | .shares => .setShares a.workloadId a.cpuShares
  | .memoryMigrate => .setMemoryMigrate a.workloadId a.memoryMigrate
  | .memorySpreadPage => .setMemorySpreadPage a.workloadId a.memorySpreadPage
  | .memorySpreadSlab => .setMemorySpreadSlab a.workloadId a.memorySpreadSlab

@[simp] theorem callFor_write (a : WorkloadAllocateResponse) (f : CgroupFile) :
    (a.callFor f).write = some ⟨a.workloadId, f, a.setting f⟩ := by
  cases f <;> rfl

theorem mem_allocationCalls {a : WorkloadAllocateResponse} {c : CgroupCall} :
    c ∈ WorkloadManager.allocationCalls a ↔ ∃ f, c = a.callFor f := by
  simp only [WorkloadManager.allocationCalls, List.mem_cons, List.not_mem_nil, or_false]
  refine ⟨?_, ?_⟩
  · rintro (rfl | rfl | rfl | rfl | rfl | rfl)
    · exact ⟨.cpuset, rfl⟩
    · exact ⟨.quota, rfl⟩
    · exact ⟨.shares, rfl⟩
    · exact ⟨.memoryMigrate, rfl⟩
    · exact ⟨.memorySpreadPage, rfl⟩
    · exact ⟨.memorySpreadSlab, rfl⟩
  · rintro ⟨f, rfl⟩
    cases f <;> simp [callFor]

end WorkloadAllocateResponse

namespace Files

/-! ## What the files show -/

/-- The file a call writes shows what it writes, the thread ids of a cpuset in any order. -/
def Shows (files : Files) : CgroupCall → Prop
  | .setCpuset c threadIds => ∃ ids, (∀ i, i ∈ ids ↔ i ∈ threadIds)
      ∧ files c .cpuset = some (getThreadIdsStr ids)
  | .setQuota c quota => files c .quota = some (toString quota)
  | .setShares c shares => files c .shares = some (toString shares)
  | .setMemoryMigrate c on => files c .memoryMigrate = some (strOfBool on)
  | .setMemorySpreadPage c on => files c .memorySpreadPage = some (strOfBool on)
  | .setMemorySpreadSlab c on => files c .memorySpreadSlab = some (strOfBool on)
  | .releaseContainer _ => True

/-- The files of the allocation's container hold what it asks for, with the thread ids
of the cpuset in any order. -/
def Holds (files : Files) (a : WorkloadAllocateResponse) : Prop :=
  ∃ b, SameAllocation a b ∧ ∀ f, files a.workloadId f = some (b.setting f)

section

variable {files files' : Files} {c : CgroupCall} {w : Write}

/-- Only the file the call writes matters. -/
theorem shows_congr (hw : c.write = some w)
    (hsame : files w.container w.file = files' w.container w.file) :
    files.Shows c ↔ files'.Shows c := by
  cases c with
  | releaseContainer => cases hw
  | setCpuset c threadIds =>
    cases hw
    exact exists_congr (fun ids => and_congr_right (fun _ => iff_of_eq (congrArg (· = _) hsame)))
  | setQuota => cases hw; exact iff_of_eq (congrArg (· = _) hsame)
  | setShares => cases hw; exact iff_of_eq (congrArg (· = _) hsame)
  | setMemoryMigrate => cases hw; exact iff_of_eq (congrArg (· = _) hsame)
  | setMemorySpreadPage => cases hw; exact iff_of_eq (congrArg (· = _) hsame)
  | setMemorySpreadSlab => cases hw; exact iff_of_eq (congrArg (· = _) hsame)

theorem shows_write (files : Files) (hw : c.write = some w) : (files.write w).Shows c := by
  cases c with
  | releaseContainer => cases hw
  | setCpuset c threadIds =>
    cases hw
    exact ⟨threadIds, fun _ => Iff.rfl, write_self _ _⟩
  | setQuota => cases hw; exact write_self _ _
  | setShares => cases hw; exact write_self _ _
  | setMemoryMigrate => cases hw; exact write_self _ _
  | setMemorySpreadPage => cases hw; exact write_self _ _
  | setMemorySpreadSlab => cases hw; exact write_self _ _

end

/-- The files hold an allocation when each of them shows what its call writes. -/
theorem holds_iff_shows {files : Files} {a : WorkloadAllocateResponse} :
    files.Holds a ↔ ∀ f, files.Shows (a.callFor f) := by
  refine ⟨?_, ?_⟩
  · rintro ⟨b, hsame, hfiles⟩ f
    cases f with
    | cpuset => exact ⟨b.threadIds, hsame.threadIds, hfiles .cpuset⟩
    | quota => exact (hfiles .quota).trans (congrArg (fun q => some (toString q)) hsame.cpuQuota)
    | shares => exact (hfiles .shares).trans (congrArg (fun q => some (toString q)) hsame.cpuShares)
    | memoryMigrate =>
      exact (hfiles .memoryMigrate).trans
        (congrArg (fun on => some (strOfBool on)) hsame.memoryMigrate)
    | memorySpreadPage =>
      exact (hfiles .memorySpreadPage).trans
        (congrArg (fun on => some (strOfBool on)) hsame.memorySpreadPage)
    | memorySpreadSlab =>
      exact (hfiles .memorySpreadSlab).trans
        (congrArg (fun on => some (strOfBool on)) hsame.memorySpreadSlab)
  · intro h
    obtain ⟨ids, hids, hcpuset⟩ := h .cpuset
    refine ⟨{ a with threadIds := ids }, ⟨rfl, rfl, rfl, hids, rfl, rfl, rfl⟩, ?_⟩
    intro f
    cases f with
    | cpuset => exact hcpuset
    | quota => exact h .quota
    | shares => exact h .shares
    | memoryMigrate => exact h .memoryMigrate
    | memorySpreadPage => exact h .memorySpreadPage
    | memorySpreadSlab => exact h .memorySpreadSlab

/-- Files that show what an allocation asks for show what an equal one asks for. -/
theorem shows_callFor_iff {files : Files} {a b : WorkloadAllocateResponse}
    (hsame : SameAllocation a b) (f : CgroupFile) :
    files.Shows (a.callFor f) ↔ files.Shows (b.callFor f) := by
  cases f with
  | cpuset =>
    simp only [WorkloadAllocateResponse.callFor, Shows, hsame.workloadId, hsame.threadIds]
  | quota => simp only [WorkloadAllocateResponse.callFor, Shows, hsame.workloadId, hsame.cpuQuota]
  | shares =>
    simp only [WorkloadAllocateResponse.callFor, Shows, hsame.workloadId, hsame.cpuShares]
  | memoryMigrate =>
    simp only [WorkloadAllocateResponse.callFor, Shows, hsame.workloadId, hsame.memoryMigrate]
  | memorySpreadPage =>
    simp only [WorkloadAllocateResponse.callFor, Shows, hsame.workloadId, hsame.memorySpreadPage]
  | memorySpreadSlab =>
    simp only [WorkloadAllocateResponse.callFor, Shows, hsame.workloadId, hsame.memorySpreadSlab]

/-! ## The record -/

/-- Which files are without the last write made for them, after one more call: its write is
lost if it is refused, unless the file shows it already. -/
def lostBy (files : Files) (lost : WorkloadId → CgroupFile → Prop) (c : CgroupCall) (ok : Bool) :
    WorkloadId → CgroupFile → Prop :=
  match c.write with
  | none => lost
  | some w => fun u f =>
      if u = w.container ∧ f = w.file then ok = false ∧ ¬ files.Shows c else lost u f

/-- The same after calls made one after another; `ok n` is the outcome of the `n`-th. -/
def lostByAll (files : Files) (lost : WorkloadId → CgroupFile → Prop) :
    List CgroupCall → (Nat → Bool) → WorkloadId → CgroupFile → Prop
  | [], _ => lost
  | c :: cs, ok =>
      lostByAll (files.perform c (ok 0)) (files.lostBy lost c (ok 0)) cs (fun n => ok (n + 1))

/-- The record is right about the file a call writes: that file shows what the call writes
unless its last write was lost. -/
def Tracks (files : Files) (lost : WorkloadId → CgroupFile → Prop) (c : CgroupCall) : Prop :=
  ∀ w, c.write = some w → (files.Shows c ↔ ¬ lost w.container w.file)

/-- No call writes this file. -/
def Spares (calls : List CgroupCall) (u : WorkloadId) (f : CgroupFile) : Prop :=
  ∀ c ∈ calls, ∀ w, c.write = some w → ¬ (u = w.container ∧ f = w.file)

/-- No two of the calls write one file. -/
def WritesApart (calls : List CgroupCall) : Prop :=
  calls.Pairwise (fun c d => ∀ w, c.write = some w → Spares [d] w.container w.file)

section

variable {files files' : Files} {lost lost' : WorkloadId → CgroupFile → Prop} {c : CgroupCall}

theorem Tracks.congr (h : files.Tracks lost c)
    (hsame : ∀ w, c.write = some w → files' w.container w.file = files w.container w.file
      ∧ lost' w.container w.file = lost w.container w.file) :
    files'.Tracks lost' c := by
  intro w hw
  rw [shows_congr hw (hsame w hw).1, (hsame w hw).2]
  exact h w hw

theorem tracks_callFor_iff {a : WorkloadAllocateResponse} {f : CgroupFile} :
    files.Tracks lost (a.callFor f) ↔ (files.Shows (a.callFor f) ↔ ¬ lost a.workloadId f) := by
  unfold Tracks
  simp

/-- **A call leaves the record right about its own file**, whether or not it succeeds. -/
theorem tracks_perform (files : Files) (lost : WorkloadId → CgroupFile → Prop) (c : CgroupCall)
    (ok : Bool) : (files.perform c ok).Tracks (files.lostBy lost c ok) c := by
  intro w hw
  unfold perform lostBy
  rw [hw]
  dsimp only
  have hown : w.container = w.container ∧ w.file = w.file := ⟨rfl, rfl⟩
  rw [if_pos hown]
  cases ok with
  | true => exact ⟨fun _ hlost => Bool.noConfusion hlost.1, fun _ => shows_write files hw⟩
  | false =>
    exact ⟨fun hshows hlost => hlost.2 hshows,
      fun hkept => Classical.byContradiction (fun hnot => hkept ⟨rfl, hnot⟩)⟩

/-- Calls that do not write a file leave it and what is recorded of it alone. -/
theorem performAll_spared {calls : List CgroupCall} {u : WorkloadId} {f : CgroupFile}
    (h : Spares calls u f) (files : Files) (lost : WorkloadId → CgroupFile → Prop)
    (ok : Nat → Bool) : files.performAll calls ok u f = files u f
      ∧ files.lostByAll lost calls ok u f = lost u f := by
  induction calls generalizing files lost ok with
  | nil => exact ⟨rfl, rfl⟩
  | cons c calls ih =>
    obtain ⟨hfiles, hlost⟩ := ih (fun d hd => h d (List.mem_cons_of_mem _ hd))
      (files.perform c (ok 0)) (files.lostBy lost c (ok 0)) (fun n => ok (n + 1))
    refine ⟨hfiles.trans ?_, hlost.trans ?_⟩
    · unfold perform
      cases hw : c.write with
      | none => rfl
      | some w =>
        dsimp only
        split
        · exact write_other files (h c List.mem_cons_self w hw)
        · rfl
    · unfold lostBy
      cases hw : c.write with
      | none => rfl
      | some w => exact if_neg (h c List.mem_cons_self w hw)

/-- After writes that all succeed, the files that are without their last write are those
that were before and that nothing wrote. -/
theorem lostByAll_of_accepted {calls : List CgroupCall} {ok : Nat → Bool}
    (h : ∀ n c, calls[n]? = some c → c.write ≠ none → ok n = true) {u : WorkloadId}
    {f : CgroupFile} : files.lostByAll lost calls ok u f ↔ Spares calls u f ∧ lost u f := by
  induction calls generalizing files lost ok with
  | nil => exact ⟨fun hlost => ⟨fun _ hc => absurd hc List.not_mem_nil, hlost⟩, fun h => h.2⟩
  | cons c calls ih =>
    have htail : ∀ n d, calls[n]? = some d → d.write ≠ none → ok (n + 1) = true :=
      fun n d hd => h (n + 1) d hd
    have hhead : files.lostBy lost c (ok 0) u f
        ↔ (∀ w, c.write = some w → ¬ (u = w.container ∧ f = w.file)) ∧ lost u f := by
      unfold lostBy
      cases hw : c.write with
      | none => simp
      | some w =>
        rw [h 0 c rfl (by simp [hw])]
        dsimp only
        split
        · next hown => simp [hown]
        · next hown =>
          exact ⟨fun hlost => ⟨fun v hv => Option.some.inj hv ▸ hown, hlost⟩, fun h => h.2⟩
    rw [lostByAll, ih htail, hhead]
    unfold Spares
    rw [List.forall_mem_cons, and_assoc, and_left_comm]

/-- **Calls that write different files leave the record right about all of them.** -/
theorem tracks_performAll {calls : List CgroupCall} (hapart : WritesApart calls) (files : Files)
    (lost : WorkloadId → CgroupFile → Prop) (ok : Nat → Bool) :
    ∀ c ∈ calls, (files.performAll calls ok).Tracks (files.lostByAll lost calls ok) c := by
  induction calls generalizing files lost ok with
  | nil => exact fun c hc => absurd hc List.not_mem_nil
  | cons d calls ih =>
    obtain ⟨hd, hapart⟩ := List.pairwise_cons.mp hapart
    intro c hc
    rcases List.mem_cons.mp hc with rfl | hc
    · -- what comes after it writes other files
      have hspares : ∀ w, c.write = some w → Spares calls w.container w.file :=
        fun w hw d' hd' => hd d' hd' w hw d' List.mem_cons_self
      exact (tracks_perform files lost c (ok 0)).congr
        (fun w hw => performAll_spared (hspares w hw) _ _ _)
    · exact ih hapart _ _ _ c hc

end

/-! ## The calls of a response -/

/-- Releasing writes nothing, and nothing is lost. -/
theorem performAll_releases (files : Files) (lost : WorkloadId → CgroupFile → Prop)
    (removes : List WorkloadId) (ok : Nat → Bool) :
    files.performAll (removes.map CgroupCall.releaseContainer) ok = files
      ∧ files.lostByAll lost (removes.map CgroupCall.releaseContainer) ok = lost := by
  induction removes generalizing ok with
  | nil => exact ⟨rfl, rfl⟩
  | cons w ws ih => exact ih _

/-- The calls for one allocation write different files. -/
theorem writesApart_allocationCalls (a : WorkloadAllocateResponse) :
    WritesApart (WorkloadManager.allocationCalls a) := by
  simp [WritesApart, Spares, WorkloadManager.allocationCalls, CgroupCall.write]

/-- Releases and the calls for allocations of different workloads write different files. -/
theorem writesApart_isolate (removes : List WorkloadId)
    (skip : WorkloadAllocateResponse → Bool) {allocs : List WorkloadAllocateResponse}
    (honce : ListsOnce allocs) :
    WritesApart (removes.map CgroupCall.releaseContainer ++ allocs.flatMap
      (fun a => if skip a then [] else WorkloadManager.allocationCalls a)) := by
  unfold WritesApart
  rw [List.pairwise_append, List.pairwise_map, List.pairwise_flatMap]
  refine ⟨?_, ⟨?_, ?_⟩, ?_⟩
  · exact List.pairwise_of_forall (fun _ _ w hw => absurd hw (by simp [CgroupCall.write]))
  · intro a _
    split
    · exact List.Pairwise.nil
    · exact writesApart_allocationCalls a
  · unfold ListsOnce at honce
    refine (List.pairwise_map.mp honce).imp ?_
    intro a b hab c hc d hd w hw d' hd' v hv heq
    rw [List.mem_singleton] at hd'
    subst hd'
    split at hc <;> split at hd
    · exact absurd hc List.not_mem_nil
    · exact absurd hc List.not_mem_nil
    · exact absurd hd List.not_mem_nil
    · obtain ⟨f, rfl⟩ := WorkloadAllocateResponse.mem_allocationCalls.mp hc
      obtain ⟨g, rfl⟩ := WorkloadAllocateResponse.mem_allocationCalls.mp hd
      rw [WorkloadAllocateResponse.callFor_write] at hw hv
      obtain rfl := Option.some.inj hw
      obtain rfl := Option.some.inj hv
      exact hab heq.1
  · intro c hc d hd w hw
    obtain ⟨u, _, rfl⟩ := List.mem_map.mp hc
    exact absurd hw (by simp [CgroupCall.write])

end Files

end TitusIsolate
