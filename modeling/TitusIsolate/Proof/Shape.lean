import Mathlib.Data.Finset.Dedup
import TitusIsolate.Model.Config
import TitusIsolate.Proof.Greedy

/-!
# What claims leave alone

The shape of a CPU is its ids: which threads are on which core of which package, in order.
Every allocator hands back a CPU of the shape it was given, and a cleared CPU is nothing
but its shape.
-/

namespace TitusIsolate

section

variable {α β γ : Type}

/-- Lists that agree under `s` agree under what `s` determines among their elements. -/
theorem map_eq_of_map_eq_on {s : α → β} {f g : α → γ} :
    ∀ {xs ys : List α}, (∀ x ∈ xs, ∀ y ∈ ys, s x = s y → f x = g y) →
      xs.map s = ys.map s → xs.map f = ys.map g
  | [], [], _, _ => rfl
  | [], y :: ys, _, hs => absurd hs (by simp)
  | x :: xs, [], _, hs => absurd hs (by simp)
  | x :: xs, y :: ys, h, hs => by
      rw [List.map_cons, List.map_cons, List.cons.injEq] at hs
      have htail : ∀ x' ∈ xs, ∀ y' ∈ ys, s x' = s y' → f x' = g y' :=
        fun x' hx' y' hy' => h x' (List.mem_cons_of_mem _ hx') y' (List.mem_cons_of_mem _ hy')
      rw [List.map_cons, List.map_cons, h x (by simp) y (by simp) hs.1,
        map_eq_of_map_eq_on htail hs.2]

theorem map_eq_of_map_eq {s : α → β} {g : α → γ} (h : ∀ x y, s x = s y → g x = g y)
    {xs ys : List α} (hs : xs.map s = ys.map s) : xs.map g = ys.map g :=
  map_eq_of_map_eq_on (fun x _ y _ => h x y) hs

/-- Lists of collections with the same descriptions and the same elements look the same, if
the look of a collection is determined by its description and its elements. -/
theorem map_eq_of_flatMap_eq {δ : Type} {s : α → β} {e : α → List γ} {v : α → δ}
    (hlen : ∀ x y, s x = s y → (e x).length = (e y).length)
    (hext : ∀ x y, s x = s y → e x = e y → v x = v y) :
    ∀ {xs ys : List α}, xs.map s = ys.map s → xs.flatMap e = ys.flatMap e → xs.map v = ys.map v
  | [], [], _, _ => rfl
  | [], y :: ys, hs, _ => absurd hs (by simp)
  | x :: xs, [], hs, _ => absurd hs (by simp)
  | x :: xs, y :: ys, hs, he => by
      rw [List.map_cons, List.map_cons, List.cons.injEq] at hs
      rw [List.flatMap_cons, List.flatMap_cons] at he
      -- the first collections are of one length, so the elements split alike
      obtain ⟨hhead, htail⟩ := List.append_inj he (hlen x y hs.1)
      rw [List.map_cons, List.map_cons, hext x y hs.1 hhead,
        map_eq_of_flatMap_eq hlen hext hs.2 htail]

/-- A change of one element that a reading does not see. -/
theorem map_modify_eq {s : α → β} {f : α → α} {xs : List α} {i : Nat}
    (h : ∀ x, xs[i]? = some x → s (f x) = s x) : (xs.modify i f).map s = xs.map s := by
  induction xs generalizing i with
  | nil => simp
  | cons x xs ih =>
    cases i with
    | zero => simp [h x (by simp)]
    | succ i =>
      have htail : ∀ y, xs[i]? = some y → s (f y) = s y := fun y hy => h y (by simpa using hy)
      rw [List.modify_succ_cons, List.map_cons, List.map_cons, ih htail]

/-- A walk whose changes a reading does not see. -/
theorem map_mapFrom_eq {s : α → β} {size : α → Nat} {g : Nat → α → α}
    (h : ∀ k x, s (g k x) = s x) (k : Nat) (xs : List α) :
    (mapFrom size g k xs).map s = xs.map s := by
  induction xs generalizing k with
  | nil => rfl
  | cons x xs ih => rw [mapFrom, List.map_cons, List.map_cons, h, ih]

end

/-! ## Views and shapes -/

/-- A core with its threads seen through `g`. -/
def Core.view {β : Type} (g : Thread → β) (c : Core) : Nat × List β := (c.id, c.threads.map g)

/-- A package with its threads seen through `g`. -/
def Package.view {β : Type} (g : Thread → β) (p : Package) : Nat × List (Nat × List β) :=
  (p.id, p.cores.map (Core.view g))

/-- A CPU with its threads seen through `g`. -/
def Cpu.view {β : Type} (g : Thread → β) (cpu : Cpu) : List (Nat × List (Nat × List β)) :=
  cpu.packages.map (Package.view g)

/-- The ids of a core and of its threads. -/
def Core.shape (c : Core) : Nat × List Nat := c.view Thread.id

/-- The ids of a package, its cores and their threads. -/
def Package.shape (p : Package) : Nat × List (Nat × List Nat) := p.view Thread.id

/-- The ids of everything there is. -/
def Cpu.shape (cpu : Cpu) : List (Nat × List (Nat × List Nat)) := cpu.view Thread.id

section

variable {β : Type} {g : Thread → β}

theorem Core.view_mapThreadsFrom {f : Nat → Thread → Thread} (hf : ∀ i t, g (f i t) = g t)
    (k : Nat) (c : Core) : (c.mapThreadsFrom f k).view g = c.view g := by
  unfold Core.view Core.mapThreadsFrom
  rw [List.map_map]
  have hsame : (g ∘ fun e : Thread × Nat => f e.2 e.1) = g ∘ Prod.fst := by
    funext e
    exact hf e.2 e.1
  rw [hsame, ← List.map_map, List.zipIdx_map_fst]

theorem Package.view_mapThreadsFrom {f : Nat → Thread → Thread} (hf : ∀ i t, g (f i t) = g t)
    (k : Nat) (p : Package) : (p.mapThreadsFrom f k).view g = p.view g := by
  unfold Package.view Package.mapThreadsFrom
  rw [map_mapFrom_eq (Core.view_mapThreadsFrom hf)]

/-- A change of threads that `g` does not see changes nothing of the view. -/
theorem Cpu.view_mapThreadsIdx {f : Nat → Thread → Thread} (hf : ∀ i t, g (f i t) = g t)
    (cpu : Cpu) : (cpu.mapThreadsIdx f).view g = cpu.view g := by
  unfold Cpu.view Cpu.mapThreadsIdx
  rw [map_mapFrom_eq (Package.view_mapThreadsFrom hf)]

theorem Package.view_modifyCore {p : Package} {i : Nat} {f : Core → Core}
    (h : ∀ c, p.cores[i]? = some c → (f c).view g = c.view g) :
    (p.modifyCore i f).view g = p.view g := by
  unfold Package.view Package.modifyCore
  rw [map_modify_eq h]

theorem Cpu.view_modifyPackage {cpu : Cpu} {i : Nat} {f : Package → Package}
    (h : ∀ p, cpu.packages[i]? = some p → (f p).view g = p.view g) :
    (cpu.modifyPackage i f).view g = cpu.view g := by
  unfold Cpu.view Cpu.modifyPackage
  rw [map_modify_eq h]

/-- The threads of a package, through its view. -/
theorem Package.getThreads_map (g : Thread → β) (p : Package) :
    p.getThreads.map g = (p.view g).2.flatMap Prod.snd := by
  unfold Package.getThreads Package.getCores Package.view
  rw [List.map_flatMap, List.flatMap_map]
  rfl

theorem Cpu.getThreads_map (g : Thread → β) (cpu : Cpu) :
    cpu.getThreads.map g = (cpu.view g).flatMap (fun p => p.2.flatMap Prod.snd) := by
  unfold Cpu.getThreads Cpu.getPackages Cpu.view
  rw [List.map_flatMap, List.flatMap_map]
  simp only [Package.getThreads_map]

end

@[simp] theorem Cpu.shape_clear (cpu : Cpu) : cpu.clear.shape = cpu.shape :=
  Cpu.view_mapThreadsIdx (f := fun _ t => t.clear) (fun _ _ => rfl) cpu

/-! ## Shape and threads make the CPU -/

section

variable {β : Type} {g : Thread → β}

theorem Cpu.ids_of_shape {a b : Cpu} (h : a.shape = b.shape) :
    a.getThreads.map Thread.id = b.getThreads.map Thread.id := by
  have hview : a.view Thread.id = b.view Thread.id := h
  rw [Cpu.getThreads_map, Cpu.getThreads_map, hview]

theorem Package.ids_of_shape {p q : Package} (h : p.shape = q.shape) :
    p.getThreads.map Thread.id = q.getThreads.map Thread.id := by
  have hview : p.view Thread.id = q.view Thread.id := h
  rw [Package.getThreads_map, Package.getThreads_map, hview]

theorem Core.view_of_shape {c d : Core} (h : c.shape = d.shape)
    (ht : c.getThreads.map g = d.getThreads.map g) : c.view g = d.view g := by
  obtain ⟨hid, _⟩ := Prod.mk.inj h
  exact Prod.ext hid ht

theorem Package.view_of_shape {p q : Package} (h : p.shape = q.shape)
    (ht : p.getThreads.map g = q.getThreads.map g) : p.view g = q.view g := by
  obtain ⟨hid, hcores⟩ := Prod.mk.inj h
  have hlen : ∀ c d : Core, c.shape = d.shape →
      (c.getThreads.map g).length = (d.getThreads.map g).length := by
    intro c d hcd
    have := congrArg (fun s : Nat × List Nat => s.2.length) hcd
    simpa [Core.shape, Core.view, Core.getThreads] using this
  have hthreads : p.cores.flatMap (fun c => c.getThreads.map g)
      = q.cores.flatMap (fun c => c.getThreads.map g) := by
    simpa [Package.getThreads, Package.getCores, List.map_flatMap] using ht
  exact Prod.ext hid (map_eq_of_flatMap_eq hlen (fun _ _ => Core.view_of_shape) hcores hthreads)

/-- **A view of a CPU is its shape and the threads seen.** -/
theorem Cpu.view_of_shape {a b : Cpu} (h : a.shape = b.shape)
    (ht : a.getThreads.map g = b.getThreads.map g) : a.view g = b.view g := by
  have hlen : ∀ p q : Package, p.shape = q.shape →
      (p.getThreads.map g).length = (q.getThreads.map g).length := by
    intro p q hpq
    simpa using congrArg List.length (Package.ids_of_shape hpq)
  have hthreads : a.packages.flatMap (fun p => p.getThreads.map g)
      = b.packages.flatMap (fun p => p.getThreads.map g) := by
    simpa [Cpu.getThreads, Cpu.getPackages, List.map_flatMap] using ht
  exact map_eq_of_flatMap_eq hlen (fun _ _ => Package.view_of_shape) h hthreads

end

theorem Core.ext_of_view {c d : Core} (h : c.view (fun t => t) = d.view (fun t => t)) : c = d := by
  obtain ⟨hid, hthreads⟩ := Prod.mk.inj h
  rw [List.map_id', List.map_id'] at hthreads
  cases c
  cases d
  cases hid
  cases hthreads
  rfl

theorem Package.ext_of_view {p q : Package} (h : p.view (fun t => t) = q.view (fun t => t)) :
    p = q := by
  obtain ⟨hid, hcores⟩ := Prod.mk.inj h
  have hsame : p.cores = q.cores := List.map_injective_iff.mpr (fun _ _ => Core.ext_of_view) hcores
  cases p
  cases q
  cases hid
  cases hsame
  rfl

/-- A CPU is what is seen of it when nothing of its threads is left out. -/
theorem Cpu.ext_of_view {a b : Cpu} (h : a.view (fun t => t) = b.view (fun t => t)) : a = b := by
  have hsame : a.packages = b.packages :=
    List.map_injective_iff.mpr (fun _ _ => Package.ext_of_view) h
  cases a
  cases b
  cases hsame
  rfl

/-- A CPU is its shape and its threads. -/
theorem Cpu.ext_of_shape {a b : Cpu} (h : a.shape = b.shape) (ht : a.getThreads = b.getThreads) :
    a = b :=
  Cpu.ext_of_view (Cpu.view_of_shape h (by rw [ht]))

/-- What `__eq__` looks at in a thread. -/
def Thread.seen (t : Thread) : Nat × Finset WorkloadId := (t.id, t.workloadIds.toFinset)

theorem Thread.eq_of_seen {t u : Thread} (h : t.seen = u.seen) : t.eq u = true := by
  obtain ⟨hid, hids⟩ := Prod.mk.inj h
  have hmem : ∀ w, w ∈ t.workloadIds ↔ w ∈ u.workloadIds := by
    intro w
    rw [← List.mem_toFinset, hids, List.mem_toFinset]
  unfold Thread.eq sameSet
  simp only [Bool.and_eq_true, List.all_eq_true, List.any_eq_true, beq_iff_eq, exists_eq_right']
  exact ⟨hid, fun w hw => (hmem w).mp hw, fun w hw => (hmem w).mpr hw⟩

theorem sameSet_of_map_eq {α β : Type} {eq : α → α → Bool} {v : α → β}
    (heq : ∀ x y, v x = v y → eq x y = true) {xs ys : List α} (h : xs.map v = ys.map v) :
    sameSet eq xs ys = true := by
  have hone : ∀ {xs ys : List α}, xs.map v = ys.map v → ∀ x ∈ xs, ∃ y ∈ ys, eq x y = true := by
    intro xs ys h x hx
    have hv : v x ∈ ys.map v := h ▸ List.mem_map_of_mem hx
    obtain ⟨y, hy, hyx⟩ := List.mem_map.mp hv
    exact ⟨y, hy, heq x y hyx.symm⟩
  unfold sameSet
  simp only [Bool.and_eq_true, List.all_eq_true, List.any_eq_true]
  exact ⟨hone h, hone h.symm⟩

theorem Core.eq_of_view {c d : Core} (h : c.view Thread.seen = d.view Thread.seen) :
    c.eq d = true := by
  obtain ⟨hid, hthreads⟩ := Prod.mk.inj h
  have hsame : sameSet Thread.eq c.getThreads d.getThreads = true :=
    sameSet_of_map_eq (fun _ _ => Thread.eq_of_seen) hthreads
  unfold Core.eq
  rw [hsame, hid, beq_self_eq_true]
  rfl

theorem Package.eq_of_view {p q : Package} (h : p.view Thread.seen = q.view Thread.seen) :
    p.eq q = true := by
  obtain ⟨hid, hcores⟩ := Prod.mk.inj h
  have hsame : sameSet Core.eq p.getCores q.getCores = true :=
    sameSet_of_map_eq (fun _ _ => Core.eq_of_view) hcores
  unfold Package.eq
  rw [hsame, hid, beq_self_eq_true]
  rfl

/-- CPUs of one shape whose threads list the same workloads, in whatever order, are equal. -/
theorem Cpu.eq_of_view {a b : Cpu} (h : a.view Thread.seen = b.view Thread.seen) :
    a.eq b = true :=
  sameSet_of_map_eq (fun _ _ => Package.eq_of_view) h

theorem Cpu.eq_refl (cpu : Cpu) : cpu.eq cpu = true := Cpu.eq_of_view rfl

/-- A cleared CPU is its shape. -/
theorem Cpu.clear_of_shape {a b : Cpu} (h : a.shape = b.shape) : a.clear = b.clear := by
  refine Cpu.ext_of_shape (by simpa using h) ?_
  rw [Cpu.getThreads_clear, Cpu.getThreads_clear]
  refine map_eq_of_map_eq ?_ (Cpu.ids_of_shape h)
  intro t u htu
  unfold Thread.clear
  rw [Thread.mk.injEq]
  exact ⟨htu, rfl⟩

/-- An update that leaves every thread as it is leaves the CPU as it is. -/
theorem Cpu.mapThreadsIdx_eq_self {cpu : Cpu} {f : Nat → Thread → Thread}
    (hid : ∀ i t, (f i t).id = t.id) (h : ∀ i, ∀ t ∈ cpu.getThreads, f i t = t) :
    cpu.mapThreadsIdx f = cpu := by
  refine Cpu.ext_of_shape (Cpu.view_mapThreadsIdx hid cpu) ?_
  rw [Cpu.getThreads_mapThreadsIdx]
  have hall : cpu.getThreads.zipIdx.map (fun e => f e.2 e.1)
      = cpu.getThreads.zipIdx.map Prod.fst :=
    List.map_congr_left (fun e he => h e.2 e.1 (List.fst_mem_of_mem_zipIdx he))
  rw [hall, List.zipIdx_map_fst]

/-- Clearing a CPU without claims does nothing. -/
theorem Cpu.clear_of_unclaimed {cpu : Cpu} (h : ∀ u, ¬ Claimed cpu u) : cpu.clear = cpu := by
  refine Cpu.mapThreadsIdx_eq_self (fun _ _ => rfl) ?_
  intro _ t ht
  cases t with
  | mk id workloadIds nodup =>
    -- a thread that lists nothing is a cleared thread
    have hnil : workloadIds = [] :=
      List.eq_nil_iff_forall_not_mem.mpr (fun u hu => h u ⟨_, ht, hu⟩)
    subst hnil
    rfl

/-! ## What Greedy leaves alone -/

section

open GreedyCpuAllocator

variable {β : Type} {g : Thread → β} {w : WorkloadId}

theorem claimEmptyThreads_map (hg : ∀ t : Thread, g (t.claim w) = g t) (n : Nat)
    (ts : List Thread) : (claimEmptyThreads w n ts).map g = ts.map g := by
  induction ts generalizing n with
  | nil => rfl
  | cons t ts ih =>
    cases n with
    | zero => rfl
    | succ n =>
      unfold claimEmptyThreads
      split
      · rw [List.map_cons, List.map_cons, ih]
      · rw [List.map_cons, List.map_cons, ih, hg]

theorem claimOnCore_view (hg : ∀ t : Thread, g (t.claim w) = g t) (n : Nat) (c : Core) :
    (claimOnCore w n c).view g = c.view g := by
  unfold Core.view claimOnCore
  rw [claimEmptyThreads_map hg]

theorem assignOnPackage_view (hg : ∀ t : Thread, g (t.claim w) = g t) :
    ∀ (fuel n : Nat) (p : Package), (assignOnPackage w fuel n p).1.view g = p.view g
  | 0, _, _ => rfl
  | fuel + 1, n, p => by
      unfold assignOnPackage
      split
      · dsimp only
        rw [assignOnPackage_view hg fuel]
        exact Package.view_modifyCore (fun c _ => claimOnCore_view hg n c)
      · rfl

theorem visit_view {w : Workload} (hg : ∀ t : Thread, g (t.claim w.taskId) = g t) (cpu : Cpu) :
    (visit w cpu).view g = cpu.view g := by
  unfold visit
  refine Cpu.view_modifyPackage ?_
  intro p hp
  rw [List.getElem?_eq_getElem cpu.getEmptiestPackage.isLt] at hp
  unfold visited
  rw [assignOnPackage_view hg]
  exact congrArg (Package.view g) (Option.some.inj hp)

theorem assignThreads_view :
    ∀ (fuel : Nat) (w : Workload) (cpu : Cpu), (∀ t : Thread, g (t.claim w.taskId) = g t) →
      (assignThreads fuel w cpu).2.view g = cpu.view g
  | 0, _, _, _ => rfl
  | fuel + 1, w, cpu, hg => by
      cases assignThreads_step fuel w cpu with
      | nothing _ heq => rw [heq]
      | full _ _ heq => rw [heq]
      | refused _ _ _ _ heq =>
        rw [heq]
        exact visit_view hg cpu
      | recurse _ _ _ heq =>
        rw [heq, assignThreads_view fuel (resume w cpu) (visit w cpu) hg]
        exact visit_view hg cpu

/-- **Placing workloads changes no view that their claims do not change.** -/
theorem assignAll_view :
    ∀ (ws : List Workload) (cpu : Cpu),
      (∀ w ∈ ws, ∀ t : Thread, g (t.claim w.taskId) = g t) →
      (assignAll ws cpu).2.view g = cpu.view g
  | [], _, _ => rfl
  | w :: ws, cpu, hg => by
      have hw := assignThreads_view (w.threadCount.toNat + 1) w cpu (hg w (by simp))
      cases hres : (assignThreads (w.threadCount.toNat + 1) w cpu).1 with
      | error e =>
        rw [assignAll_cons_of_error hres]
        exact hw
      | ok _ =>
        rw [assignAll_cons_of_ok hres,
          assignAll_view ws _ (fun v hv => hg v (List.mem_cons_of_mem _ hv))]
        exact hw

theorem assignAll_shape (ws : List Workload) (cpu : Cpu) :
    (assignAll ws cpu).2.shape = cpu.shape :=
  assignAll_view ws cpu (fun w _ t => Thread.claim_id t w.taskId)

end

/-! ## The machine -/

section

variable {P C T : Nat} {cpu : Cpu}

/-- The shape of a machine: `P` packages of `C` cores of `T` threads. -/
def gridShape (P C T : Nat) : List (Nat × List (Nat × List Nat)) :=
  (List.range P).map (fun p =>
    (p, (List.range C).map (fun c =>
      (c, (List.range T).map (Config.threadIndex P C p c)))))

theorem shape_getCpu (hP : 0 < P) (hC : 0 < C) (hT : 0 < T)
    (h : Config.getCpu P C T = .ok cpu) : cpu.shape = gridShape P C T := by
  obtain ⟨core, package, cpu', hcpu', hcore, hpackage, hpackages⟩ := Config.getCpu_eq hP hC hT
  rw [h] at hcpu'
  obtain rfl := Except.ok.inj hcpu'
  have hc : ∀ p c, (core p c).view Thread.id
      = (c, (List.range T).map (Config.threadIndex P C p c)) := by
    intro p c
    unfold Core.view
    rw [(hcore p c).1, (hcore p c).2, Config.getThreads_ids]
  have hp : ∀ p, (package p).view Thread.id = (p, (List.range C).map (fun c =>
      (c, (List.range T).map (Config.threadIndex P C p c)))) := by
    intro p
    unfold Package.view
    rw [(hpackage p).1, (hpackage p).2, List.map_map]
    exact Prod.ext rfl (List.map_congr_left (fun c _ => hc p c))
  unfold Cpu.shape Cpu.view gridShape
  rw [hpackages, List.map_map]
  exact List.map_congr_left (fun p _ => hp p)

/-- A CPU just built has no claims. -/
theorem unclaimed_getCpu (hP : 0 < P) (hC : 0 < C) (hT : 0 < T)
    (h : Config.getCpu P C T = .ok cpu) : ∀ t ∈ cpu.getThreads, t.workloadIds = [] := by
  obtain ⟨cpu', hcpu', hthreads⟩ := Config.getCpu_ok hP hC hT
  rw [h] at hcpu'
  obtain rfl := Except.ok.inj hcpu'
  rw [hthreads]
  intro t ht
  obtain ⟨p, _, ht⟩ := List.mem_flatMap.mp ht
  obtain ⟨c, _, ht⟩ := List.mem_flatMap.mp ht
  obtain ⟨r, _, rfl⟩ := List.mem_map.mp ht
  rfl

theorem package_of_gridShape (h : cpu.shape = gridShape P C T) {p : Package}
    (hp : p ∈ cpu.getPackages) :
    p.id < P ∧ p.getCores.length = C ∧ ∀ c ∈ p.getCores, c.id < C ∧ c.getThreads.length = T := by
  have hview : p.view Thread.id ∈ gridShape P C T := by
    rw [← h]
    exact List.mem_map_of_mem hp
  obtain ⟨i, hi, heq⟩ := List.mem_map.mp hview
  obtain ⟨hid, hcores⟩ := Prod.mk.inj heq
  refine ⟨hid ▸ List.mem_range.mp hi, ?_, ?_⟩
  · simpa [Package.getCores] using (congrArg List.length hcores).symm
  · intro c hc
    have hview : c.view Thread.id ∈ p.cores.map (Core.view Thread.id) := List.mem_map_of_mem hc
    rw [← hcores] at hview
    obtain ⟨j, hj, heq⟩ := List.mem_map.mp hview
    obtain ⟨hid, hthreads⟩ := Prod.mk.inj heq
    exact ⟨hid ▸ List.mem_range.mp hj, by
      simpa [Core.getThreads] using (congrArg List.length hthreads).symm⟩

theorem exists_package_of_gridShape (h : cpu.shape = gridShape P C T) {i : Nat} (hi : i < P) :
    ∃ p ∈ cpu.getPackages, p.id = i := by
  have hmem : i ∈ cpu.shape.map Prod.fst := by
    rw [h]
    unfold gridShape
    rw [List.map_map]
    exact List.mem_map.mpr ⟨i, List.mem_range.mpr hi, rfl⟩
  obtain ⟨v, hv, rfl⟩ := List.mem_map.mp hmem
  obtain ⟨p, hp, rfl⟩ := List.mem_map.mp hv
  exact ⟨p, hp, rfl⟩

/-- The packages have the same number of threads. -/
theorem threads_of_gridShape (h : cpu.shape = gridShape P C T) {p : Package}
    (hp : p ∈ cpu.getPackages) : p.getThreads.length = C * T := by
  obtain ⟨_, hcores, hthreads⟩ := package_of_gridShape h hp
  unfold Package.getThreads
  rw [RowMajor.length_flatMap_const (fun c hc => (hthreads c hc).2), hcores]

/-- The average package is like every package. -/
theorem average_of_gridShape (h : cpu.shape = gridShape P C T) :
    cpu.getThreads.length / cpu.getPackages.length = C * T := by
  have hpos : 0 < cpu.getPackages.length := List.length_pos_of_ne_nil cpu.nonempty
  have hall : cpu.getThreads.length = cpu.getPackages.length * (C * T) :=
    RowMajor.length_flatMap_const (fun p hp => threads_of_gridShape h hp)
  rw [hall, Nat.mul_div_cancel_left _ hpos]

end

end TitusIsolate
