import Mathlib.Data.List.TakeWhile
import TitusIsolate.Cgroup.File

/-!
# Where a container's cgroup files are

A container's info file has one row for each hierarchy, `id:controllers:path`. The path
of a setting's file is made of the third field of the first row whose second field is the
setting's controllers.

The third field of a row split on colons is the path up to its first colon. So the path of
a row is found whole exactly when it has none (`cgroupPath_whole_iff`).
-/

namespace TitusIsolate

/-- `ROOT_CGROUP_PATH` -/
def rootCgroupPath : String := "/sys/fs/cgroup"

/-- `TITUS_INITS_PATH` -/
def titusInitsPath : String := "/var/lib/titus-inits"

/-- `CPUSET` -/
def cpusetControllers : String := "cpuset"

/-- `CPU_CPUACCT` -/
def cpuCpuacctControllers : String := "cpu,cpuacct"

/-- `get_info_path(container_name)` -/
def getInfoPath (containerName : WorkloadId) : String :=
  titusInitsPath ++ "/" ++ containerName ++ "/cgroup"

/-- `c.isspace()` -/
def isBlank (c : Char) : Bool :=
  let n := c.toNat
  decide (9 ≤ n ∧ n ≤ 13) || decide (28 ≤ n ∧ n ≤ 32) || n == 0x85 || n == 0xa0 || n == 0x1680
    || decide (0x2000 ≤ n ∧ n ≤ 0x200a) || n == 0x2028 || n == 0x2029 || n == 0x202f
    || n == 0x205f || n == 0x3000

/-- `s.strip()` -/
def stripBlanks (s : List Char) : List Char :=
  ((s.dropWhile isBlank).reverse.dropWhile isBlank).reverse

/-- `_get_cgroup_path_from_list(cgroups_list, cgroup_name)` -/
def getCgroupPathFromList : List String → String → Except PyError (Option String)
  | [], _ => .ok none
  | row :: rows, cgroupName => do
      let r := row.toList.splitOn ':'
      let name ← getItem r 1
      let path ← getItem r 2
      if String.ofList name = cgroupName then .ok (some (String.ofList (stripBlanks path)))
      else getCgroupPathFromList rows cgroupName

/-- `"{}".format(path)` -/
def formatPath : Option String → String
  | none => "None"
  | some path => path

section

variable (readlines : String → Except PyError (List String))

/-- `get_cgroup_path_from_file(file_path, cgroup_name)`, given what opening a file and reading
its lines yields. -/
def getCgroupPathFromFile (filePath cgroupName : String) : Except PyError (Option String) := do
  let data ← readlines filePath
  getCgroupPathFromList data cgroupName

/-- The path of a file of a container's cgroup, in the hierarchy of the given controllers. -/
def cgroupFilePath (controllers file : String) (containerName : WorkloadId) :
    Except PyError String := do
  let cgroupPath ← getCgroupPathFromFile readlines (getInfoPath containerName) controllers
  .ok (rootCgroupPath ++ "/" ++ controllers ++ formatPath cgroupPath ++ "/" ++ file)

/-- `get_cpuset_path(container_name)` -/
def getCpusetPath := cgroupFilePath readlines cpusetControllers "cpuset.cpus"

/-- `get_memory_migrate_path(container_name)` -/
def getMemoryMigratePath := cgroupFilePath readlines cpusetControllers "cpuset.memory_migrate"

/-- `get_memory_spread_page_path(container_name)` -/
def getMemorySpreadPagePath :=
  cgroupFilePath readlines cpusetControllers "cpuset.memory_spread_page"

/-- `get_memory_spread_slab_path(container_name)` -/
def getMemorySpreadSlabPath :=
  cgroupFilePath readlines cpusetControllers "cpuset.memory_spread_slab"

/-- `get_quota_path(container_name)` -/
def getQuotaPath := cgroupFilePath readlines cpuCpuacctControllers "cpu.cfs_quota_us"

/-- `get_shares_path(container_name)` -/
def getSharesPath := cgroupFilePath readlines cpuCpuacctControllers "cpu.shares"

/-- The path that the `set_*` and the `get_*` of a setting open. -/
def CgroupFile.path : CgroupFile → WorkloadId → Except PyError String
  | .cpuset => getCpusetPath readlines
  | .quota => getQuotaPath readlines
  | .shares => getSharesPath readlines
  | .memoryMigrate => getMemoryMigratePath readlines
  | .memorySpreadPage => getMemorySpreadPagePath readlines
  | .memorySpreadSlab => getMemorySpreadSlabPath readlines

end

/-! ## Well-formed rows -/

/-- The controllers a setting belongs to. -/
def CgroupFile.controllers : CgroupFile → String
  | .cpuset => cpusetControllers
  | .quota => cpuCpuacctControllers
  | .shares => cpuCpuacctControllers
  | .memoryMigrate => cpusetControllers
  | .memorySpreadPage => cpusetControllers
  | .memorySpreadSlab => cpusetControllers

/-- The name of a setting's file. -/
def CgroupFile.name : CgroupFile → String
  | .cpuset => "cpuset.cpus"
  | .quota => "cpu.cfs_quota_us"
  | .shares => "cpu.shares"
  | .memoryMigrate => "cpuset.memory_migrate"
  | .memorySpreadPage => "cpuset.memory_spread_page"
  | .memorySpreadSlab => "cpuset.memory_spread_slab"

theorem CgroupFile.path_eq (readlines : String → Except PyError (List String)) (f : CgroupFile) :
    f.path readlines = cgroupFilePath readlines f.controllers f.name := by
  cases f <;> rfl

/-- A row of an info file. -/
structure CgroupRow where
  id : List Char
  controllers : List Char
  path : List Char
  /-- What ends the line. -/
  eol : List Char
  id_no_colon : ':' ∉ id
  controllers_no_colon : ':' ∉ controllers
  path_head : ∀ c, path.head? = some c → isBlank c = false
  path_last : ∀ c, path.getLast? = some c → isBlank c = false
  eol_blank : ∀ c ∈ eol, isBlank c = true

namespace CgroupRow

/-- The line of the file. -/
def text (r : CgroupRow) : String :=
  String.ofList (r.id ++ ':' :: (r.controllers ++ ':' :: (r.path ++ r.eol)))

/-- Whether a row is for the given controllers. -/
def isFor (name : String) (r : CgroupRow) : Bool := String.ofList r.controllers = name

end CgroupRow

/-- The row that a reader of the file takes. -/
def firstRow (rows : List CgroupRow) (name : String) : Option CgroupRow :=
  rows.find? (CgroupRow.isFor name)

/-! ## What is found -/

theorem dropWhile_eq_self {p : Char → Bool} {s : List Char}
    (h : ∀ c, s.head? = some c → p c = false) : s.dropWhile p = s := by
  cases s with
  | nil => rfl
  | cons c s =>
    have hc : p c = false := h c rfl
    rw [List.dropWhile_cons_of_neg]
    rw [hc]
    exact Bool.false_ne_true

/-- Blanks after a text without blanks at its ends are all that is stripped. -/
theorem stripBlanks_append {s eol : List Char} (hhead : ∀ c, s.head? = some c → isBlank c = false)
    (hlast : ∀ c, s.getLast? = some c → isBlank c = false) (heol : ∀ c ∈ eol, isBlank c = true) :
    stripBlanks (s ++ eol) = s := by
  have hrev : ∀ c ∈ eol.reverse, isBlank c = true := fun c hc => heol c (List.mem_reverse.mp hc)
  cases hs : s with
  | nil =>
    have hnil : eol.dropWhile isBlank = [] := List.dropWhile_eq_nil_iff.mpr heol
    simp [stripBlanks, hnil]
  | cons c cs =>
    rw [← hs]
    have hfront : (s ++ eol).dropWhile isBlank = s ++ eol := by
      refine dropWhile_eq_self ?_
      intro d hd
      rw [hs] at hd
      exact hhead d (by rw [hs]; exact hd)
    have hback : s.reverse.dropWhile isBlank = s.reverse := by
      refine dropWhile_eq_self ?_
      intro d hd
      exact hlast d (by rw [← List.head?_reverse]; exact hd)
    unfold stripBlanks
    rw [hfront, List.reverse_append, List.dropWhile_append_of_pos hrev, hback, List.reverse_reverse]

theorem length_stripBlanks_le (s : List Char) : (stripBlanks s).length ≤ s.length := by
  unfold stripBlanks
  rw [List.length_reverse]
  refine Nat.le_trans (List.dropWhile_sublist _).length_le ?_
  rw [List.length_reverse]
  exact (List.dropWhile_sublist _).length_le

/-- The first part of a split text is what comes before the separator. -/
theorem splitOn_eq_takeWhile_cons (a : Char) (s : List Char) :
    ∃ rest, s.splitOn a = s.takeWhile (fun c => c ≠ a) :: rest := by
  induction s with
  | nil => exact ⟨[], rfl⟩
  | cons c s ih =>
    obtain ⟨rest, hrest⟩ := ih
    rw [List.splitOn_cons_eq_if_modifyHead]
    by_cases hc : c = a
    · exact ⟨s.splitOn a, by simp [hc]⟩
    · exact ⟨rest, by simp [hc, hrest]⟩

namespace CgroupRow

/-- The path that a reader takes from a row. -/
def found (r : CgroupRow) : List Char :=
  stripBlanks ((r.path ++ r.eol).takeWhile (fun c => c ≠ ':'))

theorem split_text (r : CgroupRow) :
    ∃ rest, r.text.toList.splitOn ':'
      = r.id :: r.controllers :: (r.path ++ r.eol).takeWhile (fun c => c ≠ ':') :: rest := by
  obtain ⟨rest, hrest⟩ := splitOn_eq_takeWhile_cons ':' (r.path ++ r.eol)
  refine ⟨rest, ?_⟩
  unfold text
  rw [String.toList_ofList, List.splitOn_append_cons_self_of_not_mem r.id_no_colon,
    List.splitOn_append_cons_self_of_not_mem r.controllers_no_colon, hrest]

theorem colon_not_mem_eol (r : CgroupRow) : ':' ∉ r.eol := by
  intro h
  exact absurd (r.eol_blank ':' h) (by decide)

/-- **A path is found whole when it has no colon**, and only then. -/
theorem found_eq_path_iff (r : CgroupRow) : r.found = r.path ↔ ':' ∉ r.path := by
  refine ⟨?_, ?_⟩
  · intro h hcolon
    -- what is found lies before the colon, so it is shorter
    obtain ⟨before, after, hpath⟩ := List.append_of_mem hcolon
    have htake : (r.path ++ r.eol).takeWhile (fun c => c ≠ ':')
        = before.takeWhile (fun c => c ≠ ':') := by
      rw [hpath, List.append_assoc, List.takeWhile_append]
      split
      · rename_i hall
        rw [List.cons_append, List.takeWhile_cons_of_neg (by simp), List.append_nil]
        exact (List.takeWhile_prefix _).eq_of_length hall |>.symm
      · rfl
    have hshort : r.found.length ≤ before.length := by
      unfold found
      rw [htake]
      exact Nat.le_trans (length_stripBlanks_le _) (List.takeWhile_prefix _).length_le
    have hlen := congrArg List.length hpath
    rw [List.length_append, List.length_cons] at hlen
    rw [h] at hshort
    omega
  · intro hcolon
    have hall : (r.path ++ r.eol).takeWhile (fun c => c ≠ ':') = r.path ++ r.eol := by
      rw [List.takeWhile_eq_self_iff]
      intro c hc
      rcases List.mem_append.mp hc with hc | hc
      · exact decide_eq_true (fun heq => hcolon (heq ▸ hc))
      · exact decide_eq_true (fun heq => r.colon_not_mem_eol (heq ▸ hc))
    unfold found
    rw [hall, stripBlanks_append r.path_head r.path_last r.eol_blank]

end CgroupRow

/-- The reader takes the first row for the name. -/
theorem getCgroupPathFromList_eq (rows : List CgroupRow) (name : String) :
    getCgroupPathFromList (rows.map CgroupRow.text) name
      = .ok ((firstRow rows name).map (fun r => String.ofList r.found)) := by
  induction rows with
  | nil => rfl
  | cons r rows ih =>
    obtain ⟨rest, hsplit⟩ := r.split_text
    rw [List.map_cons, getCgroupPathFromList]
    simp only [hsplit]
    show (if String.ofList r.controllers = name then Except.ok (some (String.ofList r.found))
      else getCgroupPathFromList (rows.map CgroupRow.text) name) = _
    unfold firstRow at ih ⊢
    by_cases hname : String.ofList r.controllers = name
    · rw [if_pos hname, List.find?_cons_of_pos (by exact decide_eq_true hname)]
      rfl
    · rw [if_neg hname, List.find?_cons_of_neg (by simpa [CgroupRow.isFor] using hname), ih]

/-! ## Found whole -/

/-- No row is found when there is none for the name, and only then. -/
theorem getCgroupPathFromList_eq_none_iff {rows : List CgroupRow} {name : String} :
    getCgroupPathFromList (rows.map CgroupRow.text) name = .ok none
      ↔ ∀ r ∈ rows, String.ofList r.controllers ≠ name := by
  rw [getCgroupPathFromList_eq, Except.ok.injEq, Option.map_eq_none_iff]
  unfold firstRow
  simp [CgroupRow.isFor]

/-- The complete path of the first row for the name. -/
def wholePath (rows : List CgroupRow) (name : String) : Option String :=
  (firstRow rows name).map (fun r => String.ofList r.path)

/-- The first row for the name has no colon in its path. -/
def NoColon (rows : List CgroupRow) (name : String) : Prop :=
  ∀ r, firstRow rows name = some r → ':' ∉ r.path

theorem found_eq_wholePath_iff {rows : List CgroupRow} {name : String} :
    (firstRow rows name).map (fun r => String.ofList r.found) = wholePath rows name
      ↔ NoColon rows name := by
  unfold wholePath NoColon
  cases firstRow rows name with
  | none => simp
  | some r => simp [String.ofList_inj, r.found_eq_path_iff]

/-- **The path of a row is found whole when it has no colon**, and then every setting of the
container is written and read in its own cgroup. -/
theorem cgroupPath_whole_iff (rows : List CgroupRow) (name : String) :
    (getCgroupPathFromList (rows.map CgroupRow.text) name = .ok (wholePath rows name)
        ↔ NoColon rows name)
      ∧ (getCgroupPathFromList (rows.map CgroupRow.text) name = .ok none
        ↔ ∀ r ∈ rows, String.ofList r.controllers ≠ name)
      ∧ ∀ (readlines : String → Except PyError (List String)) (container : WorkloadId)
          (f : CgroupFile) (r : CgroupRow),
          readlines (getInfoPath container) = .ok (rows.map CgroupRow.text) →
          f.controllers = name → firstRow rows name = some r →
          (f.path readlines container
              = .ok (rootCgroupPath ++ "/" ++ name ++ String.ofList r.path ++ "/" ++ f.name)
            ↔ NoColon rows name) := by
  refine ⟨?_, getCgroupPathFromList_eq_none_iff, ?_⟩
  · rw [getCgroupPathFromList_eq, Except.ok.injEq]
    exact found_eq_wholePath_iff
  · rintro readlines container f r hread rfl hfirst
    have hpath : f.path readlines container = .ok (rootCgroupPath ++ "/" ++ f.controllers
        ++ String.ofList r.found ++ "/" ++ f.name) := by
      rw [f.path_eq, cgroupFilePath, getCgroupPathFromFile, hread]
      show (getCgroupPathFromList (rows.map CgroupRow.text) f.controllers >>= _) = _
      rw [getCgroupPathFromList_eq, hfirst]
      rfl
    have hcolon : NoColon rows f.controllers ↔ ':' ∉ r.path := by
      unfold NoColon
      rw [hfirst]
      simp
    rw [hpath, hcolon, ← r.found_eq_path_iff, Except.ok.injEq]
    refine ⟨?_, ?_⟩
    · intro h
      have hchars := congrArg String.toList h
      simpa [String.toList_append] using hchars
    · intro h
      rw [h]

/-- A row of one container's cpuset, under the given parent. -/
def cpusetRow (parent : List Char) (hhead : parent.head? = some '/') : CgroupRow where
  id := ['4']
  controllers := "cpuset".toList
  path := parent ++ "1a2b".toList
  eol := ['\n']
  id_no_colon := by decide
  controllers_no_colon := by decide
  path_head := by
    intro c hc
    rw [List.head?_append, hhead] at hc
    cases hc
    decide
  path_last := by
    intro c hc
    rw [List.getLast?_append] at hc
    cases hc
    decide
  eol_blank := by
    rintro c hc
    obtain rfl := List.mem_singleton.mp hc
    rfl

theorem cgroupPath_whole_iff_slice :
    getCpusetPath (fun _ => .ok [(cpusetRow "/containers.slice/".toList rfl).text]) "1a2b"
      = .ok "/sys/fs/cgroup/cpuset/containers.slice/1a2b/cpuset.cpus" := by
  have hfirst : firstRow [cpusetRow "/containers.slice/".toList rfl] "cpuset"
      = some (cpusetRow "/containers.slice/".toList rfl) := rfl
  refine ((cgroupPath_whole_iff [cpusetRow "/containers.slice/".toList rfl] "cpuset").2.2 _ "1a2b"
    .cpuset _ rfl rfl hfirst).mpr ?_
  intro r hr
  rw [hfirst] at hr
  cases hr
  decide

/-- A path with colons is cut at the first one, and the cpuset is looked for in the parent's. -/
theorem cgroupPath_cut :
    getCgroupPathFromList [(cpusetRow "/system.slice:docker:".toList rfl).text] "cpuset"
        ≠ .ok (wholePath [cpusetRow "/system.slice:docker:".toList rfl] "cpuset")
      ∧ getCpusetPath (fun _ => .ok [(cpusetRow "/system.slice:docker:".toList rfl).text]) "1a2b"
          = .ok "/sys/fs/cgroup/cpuset/system.slice/cpuset.cpus" := by
  decide

end TitusIsolate
