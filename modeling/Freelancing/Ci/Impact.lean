import Mathlib.Data.Char
import Mathlib.Data.Finset.Sort
import Mathlib.Data.List.Lex
import Mathlib.Data.Prod.Lex
import Freelancing.Greedy

/-!
# The impact of a change

`ci/impact.py`: the domains of `impact.yml` that a list of changed paths touches, and the flags and
test targets that they select. A change that touches no domain selects the full core.
-/

namespace Ci

/-- A `str`: a path, a pattern or a target. -/
abbrev Str := List Char

/-! ## `fnmatch` -/

inductive Wildcard
  | star
  | any
  | lit (c : Char)
  | seq (negated : Bool) (chars : Str)

/-- The characters and ranges between brackets. -/
def inSeq (c : Char) : Str → Bool
  | a :: '-' :: b :: chars => (a ≤ c && c ≤ b) || inSeq c chars
  | a :: chars => a == c || inSeq c chars
  | [] => false

/-- `[seq]` or `[!seq]` behind its opening bracket, and how many characters it takes from there. The
first character of `seq` may be a bracket. -/
def bracket (rest : Str) : Option (Wildcard × Nat) :=
  let negated := rest.head? == some '!'
  match rest.drop negated.toNat with
  | [] => none
  | c :: chars =>
    let body := chars.takeWhile (· ≠ ']')
    if body.length < chars.length then
      some (.seq negated (c :: body), negated.toNat + body.length + 2)
    else none

/-- The first number counts characters that a bracket has taken already. -/
def translate : Nat → Str → List Wildcard
  | _, [] => []
  | skip + 1, _ :: rest => translate skip rest
  | 0, c :: rest =>
    if c = '*' then .star :: translate 0 rest
    else if c = '?' then .any :: translate 0 rest
    else if c = '[' then
      match bracket rest with
      | some (w, taken) => w :: translate taken rest
      | none => .lit c :: translate 0 rest
    else .lit c :: translate 0 rest

def fullmatch : List Wildcard → Str → Bool
  | [], s => s.isEmpty
  | .star :: ws, s => s.tails.any (fullmatch ws)
  | _ :: _, [] => false
  | .any :: ws, _ :: s => fullmatch ws s
  | .lit c :: ws, d :: s => c == d && fullmatch ws s
  | .seq negated chars :: ws, d :: s => (inSeq d chars != negated) && fullmatch ws s

def fnmatch (path pattern : Str) : Bool := fullmatch (translate 0 pattern) path

/-- `matches`. -/
def pathMatches (path pattern : Str) : Bool :=
  if "/**".toList.isSuffixOf pattern then
    let leading := pattern.take (pattern.length - 3)
    fnmatch path leading || fnmatch path (leading ++ "/*".toList)
  else fnmatch path pattern

/-! ## Targets -/

/-- `target == parent or target.startswith(parent + "/")`. -/
def covers (parent target : Str) : Prop := target = parent ∨ parent ++ ['/'] <+: target

instance : DecidableRel covers := fun _ _ => inferInstanceAs (Decidable (_ ∨ _))

def sortKey (path : Str) : ℕ ×ₗ Str := toLex (path.count '/', path)

/-- The order of `sorted` with that key. -/
def Precedes (a b : Str) : Prop := sortKey a ≤ sortKey b

instance : DecidableRel Precedes := fun _ _ => inferInstanceAs (Decidable (_ ≤ _))

instance : IsTrans Str Precedes := ⟨fun _ _ _ h h' => le_trans (α := ℕ ×ₗ Str) h h'⟩

instance : Std.Antisymm Precedes where
  antisymm _ _ h h' := congrArg Prod.snd (congrArg ofLex (le_antisymm (α := ℕ ×ₗ Str) h h'))

instance : Std.Total Precedes := ⟨fun _ _ => le_total (α := ℕ ×ₗ Str) _ _⟩

def minimizeTargets (targets : Finset Str) : List Str :=
  Greedy.select covers (targets.sort Precedes)

/-! ## The configuration -/

def ALL_FLAGS : List String :=
  ["python", "database", "redis", "search", "realtime", "files", "ci", "docker", "docs", "k8s",
    "dependencies", "frontend", "frontend_e2e", "frontend_dependencies"]

/-- The kinds of targets. -/
inductive Suite
  | unit
  | integration
  | frontendUnit
  | frontendE2e
  deriving DecidableEq

/-- A domain of `impact.yml`; a key that is not there is empty. -/
structure Mapping where
  paths : List Str
  flags : List String
  targets : Suite → List Str

/-- What `load_config` lets through. -/
structure Config where
  domains : List (String × Mapping)
  defined : ∀ d ∈ domains, d.2.paths ≠ []

/-- No domain has a flag that `calculate` does not know. -/
def Config.Valid (config : Config) :
    Prop := ∀ d ∈ config.domains, ∀ flag ∈ d.2.flags, flag ∈ ALL_FLAGS

/-! ## Selecting -/

abbrev Flags := List (String × Bool)

/-- `flags[flag] = True`, for a flag that is there. -/
def Flags.set (flags : Flags) (flag : String) : Flags :=
  flags.map fun e => if e.1 = flag then (flag, true) else e

structure Selection where
  domains : List String
  flags : Flags
  targets : Suite → Finset Str

def Selection.empty : Selection := ⟨[], ALL_FLAGS.map fun flag => (flag, false), fun _ => ∅⟩

def Mapping.touched (mapping : Mapping) (changedPaths : List Str) : Bool :=
  changedPaths.any fun path => mapping.paths.any fun pattern => pathMatches path pattern

def setFlags (domain : String) : List String → Flags → Except String Flags
  | [], flags => .ok flags
  | flag :: rest, flags =>
    if flag ∈ flags.map Prod.fst then setFlags domain rest (flags.set flag)
    else .error ("unknown flag '" ++ flag ++ "' in domain '" ++ domain ++ "'")

def Selection.add (s : Selection) (domain : String) (mapping : Mapping) :
    Except String Selection := do
  let flags ← setFlags domain mapping.flags s.flags
  return ⟨s.domains ++ [domain], flags, fun k => s.targets k ∪ (mapping.targets k).toFinset⟩

/-- The loop over the domains. -/
def selectDomains (changedPaths : List Str) :
    List (String × Mapping) → Selection → Except String Selection
  | [], s => .ok s
  | (domain, mapping) :: rest, s => do
    if mapping.touched changedPaths then selectDomains changedPaths rest (← s.add domain mapping)
    else selectDomains changedPaths rest s

def coreFlags : List String := ["python", "database", "redis", "search", "realtime", "files"]

/-- The targets of the full core. -/
def coreTargets : Suite → Finset Str
  | .unit => {"tests/unit".toList}
  | .integration => {"tests/integration".toList}
  | _ => ∅

def Selection.fallback (s : Selection) : Selection :=
  ⟨s.domains ++ ["fallback-full-core"], coreFlags.foldl Flags.set s.flags,
    fun k => s.targets k ∪ coreTargets k⟩

structure Result where
  domains : List String
  flags : Flags
  targets : Suite → List Str

def calculate (changedPaths : List Str) (config : Config) : Except String Result := do
  let s ← selectDomains changedPaths config.domains .empty
  let s := if s.domains.isEmpty && !changedPaths.isEmpty then s.fallback else s
  return ⟨s.domains, s.flags, fun k => minimizeTargets (s.targets k)⟩

end Ci
