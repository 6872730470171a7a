import StaticConfig.Loader.Basic
import StaticConfig.Proofs.Resolution.Arguments
import StaticConfig.Proofs.Resolution.Declared

/-!
Loading ends. A module may lead back to a module that calls it, and then it is loaded again, under
another path. But a call is found among the installed modules only as long as its key is no longer
than the keys there, and a call by path makes the path of the directory longer. So the calls that
are followed one from another are no more than there is room for in a path.
-/
namespace StaticConfig

open StaticConfig.Except

namespace Text

/-- The first part of a text that is split begins with what was read of it. -/
theorem exists_splitFrom_eq_cons (sep : List Char) : ∀ (cs : List Char) (skip : Nat)
    (part : List Char), ∃ first rest, splitFrom sep skip part cs = (part.reverse ++ first) :: rest
  | [], skip, part => ⟨[], [], by simp [splitFrom]⟩
  | c :: cs, skip + 1, part => by
    rw [splitFrom]
    exact exists_splitFrom_eq_cons sep cs skip part
  | c :: cs, 0, part => by
    rw [splitFrom]
    split
    · exact ⟨[], _, by rw [List.append_nil]⟩
    · obtain ⟨first, rest, h⟩ := exists_splitFrom_eq_cons sep cs 0 (c :: part)
      exact ⟨c :: first, rest, by rw [h]; simp⟩

/-- A character at the start that does not belong to what is replaced stays there. -/
theorem replace_cons {old : Char} (new : String) {s : String} {c : Char} {cs : List Char}
    (hc : c ≠ old) (h : s.toList = c :: cs) :
    ∃ cs', (replace (String.singleton old) new s).toList = c :: cs' := by
  have hold : (String.singleton old).toList = [old] := by simp
  have hempty : (String.singleton old).isEmpty = false := by
    rw [Bool.eq_false_iff, Ne, String.isEmpty_iff]
    simp
  have hstep : splitFrom [old] 0 [] (c :: cs) = splitFrom [old] 0 [c] cs := by
    simp [splitFrom, hc.symm]
  obtain ⟨first, rest, hsplit⟩ := exists_splitFrom_eq_cons [old] cs 0 [c]
  unfold replace
  rw [hempty, hold, h, hstep, hsplit]
  cases rest with
  | nil => exact ⟨first, by simp [List.intercalate]⟩
  | cons second rest => exact ⟨_, by simp [List.intercalate]; rfl⟩

end Text

namespace Text.Path

/-- A relative path leads on from where it begins. -/
theorem utf8ByteSize_lt_join {part : String} (habsolute : isAbsolute part = false)
    (hne : part ≠ "") (base : String) : base.utf8ByteSize < (join base part).utf8ByteSize := by
  have hpart : 0 < part.utf8ByteSize := by
    rw [Nat.pos_iff_ne_zero]
    exact fun h => hne (String.utf8ByteSize_eq_zero_iff.1 h)
  unfold join
  rw [habsolute]
  simp only [Bool.false_eq_true, if_false]
  split
  · rw [String.utf8ByteSize_append]
    omega
  · rw [String.utf8ByteSize_append, String.utf8ByteSize_append]
    omega

end Text.Path

namespace ModuleSource

/-- The source is not a path, or it is one that leads on from where it begins. -/
def Relative : ModuleSource → Prop
  | .path s => Text.Path.isAbsolute s = false ∧ s ≠ ""
  | .registry _ | .remote _ => True

theorem exists_toList_of_pathStart {s : String}
    (h : (pathStarts.any fun start => Text.startsWith start s) = true) :
    ∃ cs, s.toList = '.' :: cs := by
  obtain ⟨start, hmem, hs⟩ := List.any_eq_true.1 h
  obtain ⟨rest, hrest⟩ := List.isPrefixOf_iff_prefix.1 hs
  have hdot : ∃ more, start.toList = '.' :: more := by
    simp only [pathStarts, List.mem_cons, List.not_mem_nil, or_false] at hmem
    rcases hmem with rfl | rfl | rfl | rfl <;> exact ⟨_, rfl⟩
  obtain ⟨more, hmore⟩ := hdot
  exact ⟨more ++ rest, by rw [← hrest, hmore]; rfl⟩

/-- What is read as a path begins with a dot, and neither is absolute nor empty. -/
theorem relative_of_read {s : String} {source : ModuleSource} (h : read s = .ok source) :
    source.Relative := by
  unfold read at h
  split at h
  · cases h
  split at h
  · rename_i hstart
    cases h
    obtain ⟨cs, hs⟩ := exists_toList_of_pathStart hstart
    obtain ⟨cs', hreplaced⟩ := Text.replace_cons "/" (show '.' ≠ '\\' by decide) hs
    change (Text.replace "\\" "/" s).toList = _ at hreplaced
    constructor
    · rw [Text.Path.isAbsolute, Text.startsWith, hreplaced]
      rfl
    · intro hempty
      rw [hempty] at hreplaced
      cases hreplaced
  split at h
  · cases h
  split at h
  · cases h
    trivial
  · cases h
    trivial

end ModuleSource

namespace Module

theorem relative_of_readCall {library : Library} {b : Block} {call : ModuleCall}
    (h : (readCall library b).result = some call) : call.source.Relative := by
  unfold readCall at h
  simp only [Report.bind_eq] at h
  split at h
  · cases h
  split at h
  · cases h
  dsimp only at h
  split at h
  · cases h
  split at h
  · cases h
  · rename_i source hsource
    cases h
    exact ModuleSource.relative_of_read hsource

/-- The calls of a module that is read from files lead on from its directory, or elsewhere. -/
theorem relative_calls_ofBodies (library : Library) (dir : String) (files : List Body) :
    ∀ e ∈ (ofBodies library dir files).result.calls, e.2.source.Relative := by
  refine calls_ofBodies (P := fun calls => ∀ e ∈ calls, e.2.source.Relative) nofun ?_ dir files
  intro calls b call h hread e he
  rcases mem_declare he with rfl | he
  · exact relative_of_readCall hread
  · exact h e he

end Module

namespace Loader

variable {l : Loader}

/-- A loaded tree, or why there is none. -/
abbrev Outcome := Except LoadFault (Report ModuleTree)

/-- The loaded trees below the calls of a module, or why there are none. -/
abbrev CallsOutcome := Except LoadFault (Report (List (String × ModuleTree)))

/-- The directory of the call, if the call is followed. -/
def followed? (l : Loader) (path : List String) (dir : String) (name : String)
    (call : ModuleCall) : Option String :=
  (l.calledDir (path ++ [name]) dir call).filter l.files.isDirectory

mutual

/-- The module of the directory, with all that it calls, is loaded to the outcome. -/
inductive Loads (l : Loader) : List String → String → Outcome → Prop
  | unread {path : List String} {dir : String} {fault : LoadFault} :
    l.loadModule dir = .error fault → Loads l path dir (.error fault)
  | read {path : List String} {dir : String} {m : Report Module} {children : CallsOutcome} :
    l.loadModule dir = .ok m → LoadsCalls l path dir m.result.calls children →
      Loads l path dir (children.map fun c =>
        ⟨⟨path, m.result, c.result, none⟩, m.diags ++ c.diags⟩)

/-- The calls of a module in the directory are loaded to the outcome. -/
inductive LoadsCalls (l : Loader) :
    List String → String → List (String × ModuleCall) → CallsOutcome → Prop
  | nil {path : List String} {dir : String} : LoadsCalls l path dir [] (.ok ⟨[], []⟩)
  | skipped {path : List String} {dir name : String} {call : ModuleCall}
      {calls : List (String × ModuleCall)} {rest : CallsOutcome} :
    l.followed? path dir name call = none → LoadsCalls l path dir calls rest →
      LoadsCalls l path dir ((name, call) :: calls) rest
  | failed {path : List String} {dir name childDir : String} {call : ModuleCall}
      {calls : List (String × ModuleCall)} {fault : LoadFault} :
    l.followed? path dir name call = some childDir →
      Loads l (path ++ [name]) childDir (.error fault) →
        LoadsCalls l path dir ((name, call) :: calls) (.error fault)
  | loaded {path : List String} {dir name childDir : String} {call : ModuleCall}
      {calls : List (String × ModuleCall)} {t : Report ModuleTree} {rest : CallsOutcome} :
    l.followed? path dir name call = some childDir → Loads l (path ++ [name]) childDir (.ok t) →
      LoadsCalls l path dir calls rest →
        LoadsCalls l path dir ((name, call) :: calls) (rest.map fun r =>
          ⟨(name, { t.result with source := some call.source }) :: r.result, t.diags ++ r.diags⟩)

end

/-- A module that is called where a module is loaded. -/
structure Follows (l : Loader) (parent child : List String × String) : Prop where
  called : ∃ m name call, l.loadModule parent.2 = .ok m ∧ (name, call) ∈ m.result.calls ∧
    child.1 = parent.1 ++ [name] ∧ l.followed? parent.1 parent.2 name call = some child.2

/-- The length of the longest key of an installed module. -/
def keyLimit (l : Loader) : Nat :=
  (l.installed.keys.map String.length).foldl max 0

/-- How many levels of calls there can be below a module: first those that look for installed
modules, then those that make the path of the directory longer. -/
def levels (l : Loader) (path : List String) (dir : String) : Nat :=
  (l.keyLimit + 1 - path.length) +
    (FileTree.pathLimit + 1 - if l.keyLimit < path.length then dir.utf8ByteSize else 0)

theorem le_foldl_max {n : Nat} {ns : List Nat} : ∀ {start : Nat}, n ≤ start ∨ n ∈ ns →
    n ≤ ns.foldl max start := by
  induction ns with
  | nil => exact fun h => h.resolve_right List.not_mem_nil
  | cons k ns ih =>
    intro start h
    rw [List.foldl_cons]
    apply ih
    rcases h with h | h
    · left
      omega
    · rcases List.mem_cons.1 h with rfl | h
      · left
        omega
      · exact .inr h

theorem length_le_keyLimit {key dir : String} (h : l.installed.get? key = some dir) :
    key.length ≤ l.keyLimit :=
  le_foldl_max (.inr (List.mem_map_of_mem (Fields.mem_keys_of_get? h)))

/-- Joined names have a dot between each two of them. -/
theorem length_le_intercalate (names : List String) :
    names.length ≤ (String.intercalate "." names).length + 1 := by
  induction names with
  | nil => simp
  | cons first rest ih =>
    cases rest with
    | nil => simp
    | cons second rest =>
      rw [String.intercalate_cons_cons, String.length_append, String.length_append]
      have hdot : ".".length = 1 := rfl
      simp only [List.length_cons] at ih ⊢
      omega

/-- A call that is followed leads either to an installed module, whose key is no longer than the
longest one, or further down. -/
theorem cases_of_followed {path : List String} {dir name childDir : String} {call : ModuleCall}
    (hrelative : call.source.Relative) (h : l.followed? path dir name call = some childDir) :
    childDir.utf8ByteSize ≤ FileTree.pathLimit ∧
      (path.length ≤ l.keyLimit ∨ dir.utf8ByteSize < childDir.utf8ByteSize) := by
  obtain ⟨hdir, hisdir⟩ := Option.filter_eq_some_iff.1 h
  constructor
  · by_contra hlong
    rw [FileTree.isDirectory_of_long (Nat.not_le.1 hlong)] at hisdir
    cases hisdir
  · unfold calledDir at hdir
    split at hdir
    · cases hdir
    · rename_i s hpath _
      cases hdir
      rw [hpath] at hrelative
      exact .inr (Text.Path.utf8ByteSize_lt_join hrelative.1 hrelative.2 dir)
    · have hkey := length_le_keyLimit hdir
      have hnames := length_le_intercalate (path ++ [name])
      rw [List.length_append, List.length_singleton] at hnames
      left
      omega
    · cases hdir

theorem relative_calls_loadModule (dir : String) :
    Ensures (fun m => ∀ e ∈ m.result.calls, e.2.source.Relative) (l.loadModule dir) :=
  ensures_then fun _ => ensures_then fun _ => ensures_ok (Module.relative_calls_ofBodies _ _ _)

/-- Each call that is followed leaves room for fewer levels. -/
theorem levels_lt_of_followed {path : List String} {dir name childDir : String} {call : ModuleCall}
    (hrelative : call.source.Relative) (h : l.followed? path dir name call = some childDir) :
    l.levels (path ++ [name]) childDir < l.levels path dir := by
  obtain ⟨hlimit, hdown⟩ := cases_of_followed hrelative h
  unfold levels
  rw [List.length_append, List.length_singleton]
  by_cases hkeys : l.keyLimit < path.length
  · have hsize := hdown.resolve_left (by omega)
    rw [if_pos hkeys, if_pos (by omega)]
    omega
  · rw [if_neg hkeys]
    omega

section Calls

variable {load : List String → String → Outcome} {path : List String} {dir name childDir : String}
  {call : ModuleCall} {calls : List (String × ModuleCall)}

theorem loadCalls_cons_of_none (h : l.followed? path dir name call = none) :
    l.loadCalls load path dir ((name, call) :: calls) = l.loadCalls load path dir calls := by
  rw [loadCalls]
  split
  · rfl
  · next childDir hsome => cases hsome.symm.trans h

theorem loadCalls_cons_of_some (h : l.followed? path dir name call = some childDir) :
    l.loadCalls load path dir ((name, call) :: calls) =
      load (path ++ [name]) childDir >>= fun t =>
        (l.loadCalls load path dir calls).map fun r =>
          ⟨(name, { t.result with source := some call.source }) :: r.result,
            t.diags ++ r.diags⟩ := by
  rw [loadCalls]
  split
  · next hnone => cases hnone.symm.trans h
  next childDir' hsome =>
  cases hsome.symm.trans h
  refine congrArg (_ >>= ·) (funext fun t => ?_)
  cases l.loadCalls load path dir calls <;> rfl

end Calls

theorem loadWithin_succ (l : Loader) (fuel : Nat) (path : List String) (dir : String) :
    l.loadWithin (fuel + 1) path dir = l.loadModule dir >>= fun m =>
      (l.loadCalls (l.loadWithin fuel) path dir m.result.calls).map fun c =>
        ⟨⟨path, m.result, c.result, none⟩, m.diags ++ c.diags⟩ := by
  rw [loadWithin]
  refine congrArg (_ >>= ·) (funext fun m => ?_)
  cases l.loadCalls (l.loadWithin fuel) path dir m.result.calls <;> rfl

mutual

/-- The limit on the depth has no part in what is loaded. -/
theorem loadWithin_of_loads {path : List String} {dir : String} {outcome : Outcome} :
    ∀ fuel, l.levels path dir < fuel → l.Loads path dir outcome →
      l.loadWithin fuel path dir = outcome
  | 0, hfuel, _ => absurd hfuel (Nat.not_lt_zero _)
  | fuel + 1, _, .unread hm => by
    rw [loadWithin_succ, hm]
    rfl
  | fuel + 1, hfuel, @Loads.read _ _ _ m children hm hcalls => by
    have hrelative := relative_calls_loadModule dir m hm
    have hchildren := loadCalls_of_loads fuel (Nat.lt_succ_iff.1 hfuel) hrelative hcalls
    rw [loadWithin_succ, hm, ← hchildren]
    rfl

theorem loadCalls_of_loads {path : List String} {dir : String}
    {calls : List (String × ModuleCall)} {outcome : CallsOutcome} (fuel : Nat)
    (hfuel : l.levels path dir ≤ fuel) (hrelative : ∀ e ∈ calls, e.2.source.Relative) :
    l.LoadsCalls path dir calls outcome → l.loadCalls (l.loadWithin fuel) path dir calls = outcome
  | .nil => rfl
  | .skipped hskipped hrest => by
    rw [loadCalls_cons_of_none hskipped]
    exact loadCalls_of_loads fuel hfuel (List.forall_mem_cons.1 hrelative).2 hrest
  | .failed hfollowed hchild => by
    have hlevels := levels_lt_of_followed (List.forall_mem_cons.1 hrelative).1 hfollowed
    have hfault := loadWithin_of_loads fuel (by omega) hchild
    rw [loadCalls_cons_of_some hfollowed, hfault]
    rfl
  | .loaded hfollowed hchild hrest => by
    obtain ⟨hfirst, hothers⟩ := List.forall_mem_cons.1 hrelative
    have hlevels := levels_lt_of_followed hfirst hfollowed
    have htree := loadWithin_of_loads fuel (by omega) hchild
    have hcalls := loadCalls_of_loads fuel hfuel hothers hrest
    rw [loadCalls_cons_of_some hfollowed, htree, hcalls]
    rfl

end

/-- The outcome is not that the calls do not end. -/
def Ended {α : Type} (outcome : Except LoadFault α) : Prop :=
  outcome ≠ .error .endless

theorem ended_bind {α β : Type} {x : Except LoadFault α} {f : α → Except LoadFault β}
    (hx : Ended x) (hf : ∀ a, Ended (f a)) : Ended (x >>= f) := by
  cases x with
  | error fault =>
    intro h
    cases h
    exact hx rfl
  | ok a => exact hf a

theorem ended_map {α β : Type} {x : Except LoadFault α} {f : α → β} (hx : Ended x) :
    Ended (x.map f) := by
  cases x with
  | error fault =>
    intro h
    cases h
    exact hx rfl
  | ok a => exact nofun

theorem ended_mapError {ε α : Type} {x : Except ε α} {fault : ε → LoadFault}
    (h : ∀ e, fault e ≠ .endless) : Ended (x.mapError fault) := by
  cases x with
  | error e =>
    intro heq
    exact h e (Except.error.inj heq)
  | ok a => exact nofun

theorem ended_mapM {α β : Type} {f : α → Except LoadFault β} (hf : ∀ a, Ended (f a))
    (as : List α) : Ended (as.mapM f) := by
  induction as with
  | nil => exact nofun
  | cons a as ih =>
    rw [List.mapM_cons]
    exact ended_bind (hf a) fun b => ended_bind ih fun bs => nofun

theorem ended_loadModule (l : Loader) (dir : String) : Ended (l.loadModule dir) := by
  have hbody (path : String) : Ended (l.readBody path) :=
    ended_bind (ended_mapError nofun) fun text => ended_mapError nofun
  exact ended_bind (ended_mapError nofun) fun paths =>
    ended_bind (ended_mapM hbody _) fun bodies => nofun

mutual

/-- Modules are never loaded to the fault of a depth that does not end. -/
theorem ended_of_loads {path : List String} {dir : String} {outcome : Outcome} :
    l.Loads path dir outcome → Ended outcome
  | .unread hm => by
    have hmodule := ended_loadModule l dir
    intro h
    cases h
    exact hmodule hm
  | .read _ hcalls => ended_map (ended_of_loadsCalls hcalls)

theorem ended_of_loadsCalls {path : List String} {dir : String}
    {calls : List (String × ModuleCall)} {outcome : CallsOutcome} :
    l.LoadsCalls path dir calls outcome → Ended outcome
  | .nil => nofun
  | .skipped _ hrest => ended_of_loadsCalls hrest
  | .failed _ hchild => by
    have hfault := ended_of_loads hchild
    intro h
    cases h
    exact hfault rfl
  | .loaded _ _ hrest => ended_map (ended_of_loadsCalls hrest)

end

/-- A module that calls itself is loaded again under a longer path. -/
example :
    let l : Loader := ⟨.ofFiles [] ["app"] [], fun _ _ => none, "app", default, []⟩
    let call : ModuleCall := { (default : ModuleCall) with source := .path "./" }
    l.followed? [] "app" "again" call = some "app/./" ∧
      l.followed? ["again"] "app/./" "again" call = some "app/././" := by
  decide

end Loader

end StaticConfig
