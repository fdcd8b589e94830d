import Mathlib.Data.List.Sort
import TitusIsolate.Model.Processor

/-!
# Drawing a CPU

`visualize_cpu_comparison` renders the CPU before and after a change for the log.
It runs inside the workload manager's commit, so an exception raised here is an
exception of `isolate`: a row of a package's grid is half as long as an average
package has threads, and writing past its end is an `IndexError`.
-/

namespace TitusIsolate

/-- `repr` of a character inside a string quoted with `q`. A character beyond the ASCII ones is
taken to be printable. -/
def reprChar (q c : Char) : String :=
  if c = '\\' then "\\\\"
  else if c = q then "\\" ++ String.singleton q
  else if c = '\n' then "\\n"
  else if c = '\r' then "\\r"
  else if c = '\t' then "\\t"
  else if c.toNat < 32 ∨ c.toNat = 127 then
    String.ofList ['\\', 'x', Nat.digitChar (c.toNat / 16), Nat.digitChar (c.toNat % 16)]
  else String.singleton c

/-- `repr` of a string: single quotes unless the text has a single quote and no double one. -/
def reprStr (s : String) : String :=
  let q : Char := if '\'' ∈ s.toList ∧ '"' ∉ s.toList then '"' else '\''
  String.singleton q ++ String.join (s.toList.map (reprChar q)) ++ String.singleton q

/-- `str(xs)` of a list of strings. -/
def strOfList (xs : List String) : String := "[" ++ ", ".intercalate (xs.map reprStr) ++ "]"

/-- The loop of `__get_str_repr`, with fuel for the number of rounds. -/
def getStrReprLoop : Nat → Int → String → String
  | 0, _, res => res
  | fuel + 1, ind, res =>
      if ind ≥ 0 then
        getStrReprLoop fuel (ind - 26) (res.push (Char.ofNat ('a'.toNat + (ind % 26).toNat)))
      else res

/-- `__get_str_repr(ind)` -/
def getStrRepr (ind : Nat) : String := getStrReprLoop (ind + 1) ind ""

/-- `__get_workloads_str(t)` -/
def getWorkloadsStr (t : Thread) : String := strOfList (t.workloadIds.insertionSort (· ≤ ·))

/-- The distinct claims on the given CPUs, in the order they are met. -/
def footprintKeys (cpus : List Cpu) : List String :=
  (cpus.flatMap Cpu.getThreads).foldl (fun keys t =>
    if !t.isClaimed then keys
    else if getWorkloadsStr t ∈ keys then keys
    else keys ++ [getWorkloadsStr t]) []

/-- `__get_footprints(cpus)` -/
def getFootprints (cpus : List Cpu) : OrderedDict String String :=
  (footprintKeys cpus).zipIdx.foldl
    (fun footprints e => footprints.insert e.1 (getStrRepr e.2)) OrderedDict.empty

/-- `xs[i] = v` -/
def setItem {α : Type} (xs : List α) (i : Nat) (v : α) : Except PyError (List α) :=
  if i < xs.length then .ok (xs.set i v)
  else .error (.indexError "list assignment index out of range")

/-- The two rows of one package, filled from its thread number `j` on. -/
def fillRows (footprints : OrderedDict String String) :
    Nat → List String → List String → List Thread → Except PyError (List String × List String)
  | _, s1, s2, [] => .ok (s1, s2)
  | j, s1, s2, t :: ts =>
      if !t.isClaimed then fillRows footprints (j + 1) s1 s2 ts
      else
        match footprints.get? (getWorkloadsStr t) with
        | none => .error (.keyError (getWorkloadsStr t))
        | some simpleId =>
            -- threads go up and down in turn, two to a column
            if j % 2 = 0 then
              match setItem s1 (j / 2) simpleId with
              | .error e => .error e
              | .ok s1 => fillRows footprints (j + 1) s1 s2 ts
            else
              match setItem s2 (j / 2) simpleId with
              | .error e => .error e
              | .ok s2 => fillRows footprints (j + 1) s1 s2 ts

/-- The lines of the packages from number `ind` on. -/
def packageLines (footprints : OrderedDict String String) (nPackages nCusPerPackage : Nat) :
    Nat → List Package → Except PyError (List String)
  | _, [] => .ok []
  | ind, p :: ps =>
      -- as many columns as half the threads of an even package
      let blank := List.replicate (nCusPerPackage / 2) " "
      match fillRows footprints 0 blank blank p.getThreads with
      | .error e => .error e
      | .ok (s1, s2) =>
          let row1 := " | ".intercalate s1
          let row2 := " | ".intercalate s2
          let rule := String.ofList (List.replicate row1.length '-')
          let lines := ["| " ++ row1 ++ " |\n", "| " ++ row2 ++ " |\n"]
            ++ (if ind + 1 < nPackages then ["| " ++ rule ++ " |\n"] else [])
          match packageLines footprints nPackages nCusPerPackage (ind + 1) ps with
          | .error e => .error e
          | .ok rest => .ok (lines ++ rest)

/-- The legend, spliced into the buffer from line `i` on. -/
def addLegend (lgrid : Nat) : Nat → List String → List (String × String) → List String
  | _, buffer, [] => buffer
  | i, buffer, (wid, simpleId) :: rest =>
      let buffer :=
        match buffer[i]? with
        | some line =>
            buffer.set i
              (String.ofList line.toList.dropLast ++ "   " ++ simpleId ++ ": " ++ wid ++ "\n")
        | none =>
            buffer ++
              [String.ofList (List.replicate lgrid ' ') ++ "  " ++ simpleId ++ ": " ++ wid ++ "\n"]
      addLegend lgrid (i + 1) buffer rest

/-- `__visualize(cpu, footprints)` -/
def visualizeWith (cpu : Cpu) (footprints : OrderedDict String String) : Except PyError String :=
  let nPackages := cpu.getPackages.length
  let nCusPerPackage := cpu.getThreads.length / nPackages
  match packageLines footprints nPackages nCusPerPackage 0 cpu.getPackages with
  | .error e => .error e
  | .ok buffer =>
      let lgrid := (buffer.headD "").length
      let workloadsOnCpu := cpu.getThreads.map getWorkloadsStr
      let legend := footprints.entries.filter (fun e => e.1 ∈ workloadsOnCpu)
      .ok (String.join (addLegend lgrid 0 buffer legend))

/-- `visualize(cpu)` -/
def visualize (cpu : Cpu) : Except PyError String := visualizeWith cpu (getFootprints [cpu])

/-- `visualize_cpu_comparison(old_cpu, new_cpu)` -/
def visualizeCpuComparison (oldCpu newCpu : Cpu) : Except PyError String :=
  let footprints := getFootprints [oldCpu, newCpu]
  match visualizeWith oldCpu footprints with
  | .error e => .error e
  | .ok old =>
      match visualizeWith newCpu footprints with
      | .error e => .error e
      | .ok new => .ok ("\n" ++ old ++ "\n" ++ new)

/-- `str(cpu)` -/
def Cpu.str (cpu : Cpu) : Except PyError String :=
  let nPackages := cpu.getPackages.length
  let nCores := nPackages * ((cpu.getPackages.head cpu.nonempty).getCores.length)
  match visualize cpu with
  | .error e => .error e
  | .ok picture => .ok
      (toString nPackages ++ " packages, " ++ toString nCores ++ " cores per package, "
        ++ toString (cpu.getThreads.length / nCores) ++ " threads per core\n"
        ++ toString cpu.getClaimedThreads.length ++ " threads claimed\n" ++ picture)

end TitusIsolate
