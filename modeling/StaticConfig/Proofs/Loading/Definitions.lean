import StaticConfig.Loader.Values
import StaticConfig.Proofs.Except
import StaticConfig.Proofs.Fields

/-!
Which value a variable of the root module has after all definitions of it. Of those in files, one
with errors leaves the value as it is. An override replaces the value also if it has errors, so the
value is not always that of the last definition without any.
-/
namespace StaticConfig

namespace FileNode

/-- The entries of each directory, of the node and below it, stand in ascending order of name. -/
inductive Ordered : FileNode → Prop where
  | file (text : String) : Ordered (.file text)
  | directory {entries : List (String × FileNode)} (hsorted : Fields.Sorted entries)
      (hentries : ∀ e ∈ entries, Ordered e.2) : Ordered (.directory entries)

namespace Ordered

variable {n new found : FileNode} {parts : List String}

theorem sorted {entries : List (String × FileNode)} (h : Ordered (.directory entries)) :
    Fields.Sorted entries := by
  cases h with
  | directory hsorted => exact hsorted

theorem of_mem {entries : List (String × FileNode)} (h : Ordered (.directory entries)) :
    ∀ e ∈ entries, e.2.Ordered := by
  cases h with
  | directory hsorted hentries => exact hentries

theorem empty : FileNode.empty.Ordered := .directory .nil (List.forall_mem_nil _)

theorem entries (h : Ordered n) : Ordered (.directory n.entries) := by
  cases n with
  | file text => exact empty
  | directory entries => exact h

theorem child (h : Ordered n) (part : String) :
    ((Fields.get? part n.entries).getD .empty).Ordered := by
  cases hget : Fields.get? part n.entries with
  | none => exact empty
  | some child => exact h.entries.of_mem (part, child) (Fields.mem_of_get? hget)

theorem insert (h : Ordered n) (hnew : Ordered new) (part : String) :
    Ordered (.directory (Fields.insert part new n.entries)) := by
  refine .directory (Fields.sorted_insert h.entries.sorted part new) ?_
  intro e he
  rcases Fields.mem_insert he with rfl | he
  · exact hnew
  · exact h.entries.of_mem e he

theorem put (hnew : Ordered new) (parts : List String) (h : Ordered n) :
    Ordered (FileNode.put new parts n) := by
  induction parts generalizing n with
  | nil => exact hnew
  | cons part parts ih => exact h.insert (ih (h.child part)) part

theorem makeDirectory (parts : List String) (h : Ordered n) :
    Ordered (FileNode.makeDirectory parts n) := by
  induction parts generalizing n with
  | nil => exact h
  | cons part parts ih => exact h.insert (ih (h.child part)) part

theorem follow {parents : List FileNode} (hparents : ∀ p ∈ parents, Ordered p) (h : Ordered n)
    (hfollow : FileNode.follow parents n parts = .ok found) : Ordered found := by
  induction parts generalizing parents n with
  | nil =>
    cases hfollow
    exact h
  | cons part parts ih =>
    cases n with
    | file text => cases hfollow
    | directory entries =>
      simp only [FileNode.follow] at hfollow
      split at hfollow
      · exact ih hparents h hfollow
      · split at hfollow
        · split at hfollow
          · exact ih (List.forall_mem_nil _) h hfollow
          · exact ih (List.forall_mem_cons.1 hparents).2 (List.forall_mem_cons.1 hparents).1 hfollow
        · split at hfollow
          · cases hfollow
          · split at hfollow
            · next next hget =>
              have hnext := h.of_mem (part, next) (Fields.mem_of_get? hget)
              exact ih (List.forall_mem_cons.2 ⟨h, hparents⟩) hnext hfollow
            · cases hfollow

end Ordered

end FileNode

namespace FileTree

theorem ordered_ofFiles (workingDir directories : List String) (files : List (String × String)) :
    (ofFiles workingDir directories files).top.Ordered := by
  rw [ofFiles]
  refine List.foldlRecOn files _ ?_ fun n hn f _ => .put (.file f.2) _ hn
  refine List.foldlRecOn directories _ ?_ fun n hn d _ => hn.makeDirectory _
  exact FileNode.Ordered.empty.makeDirectory _

theorem ordered_of_find {t : FileTree} {path : String} {n : FileNode} (ht : t.top.Ordered)
    (h : t.find path = .ok n) : n.Ordered := by
  unfold find at h
  split at h
  · cases h
  · split at h
    · cases h
    · split at h
      · cases h
      · exact .follow (List.forall_mem_nil _) ht h

theorem of_list {t : FileTree} {path : String} {paths : List String}
    (h : t.list path = .ok paths) : ∃ entries, t.find path = .ok (.directory entries) ∧
      paths = entries.map fun e => Text.Path.join path e.1 := by
  unfold list at h
  split at h
  · next entries hfind =>
    cases h
    exact ⟨entries, hfind, rfl⟩
  · cases h
  · cases h

end FileTree

namespace Loader

/-- A definition of a value, with what its evaluation gives. -/
structure Definition where
  name : String
  read : Report Value

namespace Definition

/-- The expression is evaluated without errors. -/
def isClean (d : Definition) : Bool := !Diagnostics.hasErrors d.read.diags

def entry (d : Definition) : String × Value := (d.name, d.read.result)

/-- The last of the definitions of a name. -/
def last? (name : String) (ds : List Definition) : Option Definition :=
  ds.reverse.find? fun d => d.name = name

/-- What the last of the definitions of a name gives. -/
def value? (name : String) (ds : List Definition) : Option Value :=
  (last? name ds).map fun d => d.read.result

/-- The definitions of names that the module declares. -/
def declaredIn (m : Module) (ds : List Definition) : List Definition :=
  ds.filter fun d => m.inputs.contains d.name

theorem last?_append (name : String) (as bs : List Definition) :
    last? name (as ++ bs) = (last? name bs).or (last? name as) := by
  rw [last?, List.reverse_append, List.find?_append, last?, last?]

/-- The last definition stays the last if only others are left out. -/
theorem last?_filter {name : String} {ds : List Definition} {d : Definition}
    {p : Definition → Bool} (h : last? name ds = some d) (hd : p d = true) :
    last? name (ds.filter p) = some d := by
  obtain ⟨hname, before, after, hsplit, hbefore⟩ := List.find?_eq_some_iff_append.1 h
  rw [last?, ← List.filter_reverse, hsplit, List.find?_eq_some_iff_append]
  refine ⟨hname, before.filter p, after.filter p, ?_, ?_⟩
  · rw [List.filter_append, List.filter_cons, if_pos hd]
  · exact fun e he => hbefore e (List.mem_of_mem_filter he)

theorem last?_filter_eq_none {name : String} {ds : List Definition} (p : Definition → Bool)
    (h : last? name ds = none) : last? name (ds.filter p) = none := by
  rw [last?, List.find?_eq_none] at h ⊢
  intro d hd
  exact h d (List.mem_reverse.2 (List.mem_of_mem_filter (List.mem_reverse.1 hd)))

/-- With what counts of the files, the last override decides. -/
theorem value?_overridden_iff (name : String) (files overrides : List Definition) :
    value? name (files.filter isClean ++ overrides) =
        value? name ((files ++ overrides).filter isClean) ↔
      ∀ d, last? name overrides = some d → d.isClean = true ∨
        value? name ((files ++ overrides).filter isClean) = some d.read.result := by
  have hall : last? name ((files ++ overrides).filter isClean) =
      (last? name (overrides.filter isClean)).or (last? name (files.filter isClean)) := by
    rw [List.filter_append, last?_append]
  cases hlast : last? name overrides with
  | none =>
    have hsame : value? name (files.filter isClean ++ overrides) =
        value? name ((files ++ overrides).filter isClean) := by
      rw [value?, value?, hall, last?_append, hlast, last?_filter_eq_none isClean hlast]
    refine iff_of_true hsame ?_
    rintro d ⟨⟩
  | some d =>
    have hvalue : value? name (files.filter isClean ++ overrides) = some d.read.result := by
      rw [value?, last?_append, hlast]
      rfl
    rw [hvalue]
    constructor
    · rintro hsame e ⟨⟩
      exact .inr hsame.symm
    · intro h
      rcases h d rfl with hclean | hsame
      · rw [value?, hall, last?_filter hlast hclean]
        rfl
      · exact hsame.symm

theorem get?_entries (name : String) (ds : List Definition) :
    Fields.get? name (ds.map entry) = (ds.find? fun d => d.name = name).map (·.read.result) := by
  induction ds with
  | nil => rfl
  | cons d ds ih =>
    rw [List.map_cons, entry, Fields.get?, List.find?_cons]
    by_cases hname : d.name = name
    · simp [hname]
    · simpa [hname] using ih

/-- Of the definitions of declared names, the last one with a name is found. -/
theorem get?_added {m : Module} (name : String) (ds : List Definition) :
    Fields.get? name (Fields.insertAll ((declaredIn m ds).map entry) []) =
      if m.inputs.contains name then value? name ds else none := by
  rw [Fields.get?_insertAll_reverse, ← List.map_reverse, get?_entries, declaredIn,
    ← List.filter_reverse, List.find?_filter, Fields.get?_nil, Option.or_none]
  split
  · next hdeclared =>
    rw [value?, last?]
    congr 1
    congr 1
    funext d
    by_cases hname : d.name = name
    · simp [hname, hdeclared]
    · simp [hname]
  · next hdeclared =>
    rw [Option.map_eq_none_iff, List.find?_eq_none]
    intro d _ hd
    have hd : m.inputs.contains d.name = true ∧ d.name = name := by simpa using hd
    exact hdeclared (hd.2 ▸ hd.1)

end Definition

open Definition (entry isClean last? value? declaredIn)

/-- The definitions in a file, in order. -/
def fileDefinitions (l : Loader) (path : String) : Except LoadFault (List Definition) :=
  if Text.endsWith ".json" (Text.Path.fileName path) then do
    let values ← l.readJsonValues path
    pure (values.map fun e => ⟨e.1, ⟨e.2, []⟩⟩)
  else do
    let body ← l.readBody path
    pure (body.attributes.map fun e => ⟨e.1, Eval.constant l.library e.2.expr⟩)

/-- The definitions in several files, one after the other. -/
def definitionsOfFiles (l : Loader) : List String → Except LoadFault (List Definition)
  | [] => .ok []
  | path :: paths => do
    let here ← l.fileDefinitions path
    let rest ← definitionsOfFiles l paths
    pure (here ++ rest)

/-- The definitions by overrides, of variables that the module declares. -/
def definitionsOfOverrides (library : Library) (m : Module) :
    List String → Except LoadFault (List Definition)
  | [] => .ok []
  | text :: texts =>
    match splitOverride? text with
    | none => definitionsOfOverrides library m texts
    | some (name, value) =>
      match m.inputs.get? name with
      | none => definitionsOfOverrides library m texts
      | some v => do
        let read ← overrideValue library name value v.constraint
        let rest ← definitionsOfOverrides library m texts
        pure (⟨name, read⟩ :: rest)

section Files

variable {library : Library} {l : Loader} {m : Module} {values : Fields Value}

theorem constants_eq (attributes : List (String × Attribute)) :
    constants library attributes =
      let ds : List Definition :=
        attributes.map fun e => ⟨e.1, Eval.constant library e.2.expr⟩
      ⟨(ds.filter isClean).map entry, ds.flatMap fun d => d.read.diags⟩ := by
  induction attributes with
  | nil => rfl
  | cons e rest ih =>
    obtain ⟨name, a⟩ := e
    simp only [constants, ih, List.map_cons, List.filter_cons, isClean, List.flatMap_cons]
    split
    · next hfailed => simp [hfailed]
    · next hfailed => simp [hfailed, entry]

theorem of_readValues {path : String} {found : Report (Fields Value)}
    (h : l.readValues path = .ok found) : ∃ ds, l.fileDefinitions path = .ok ds ∧
      found.result = (ds.filter isClean).map entry ∧
      ∀ d ∈ ds, ∀ p ∈ d.read.diags, p ∈ found.diags := by
  unfold readValues at h
  unfold fileDefinitions
  split at h
  · next hjson =>
    obtain ⟨values, hvalues, rfl⟩ := Except.map_eq_ok.1 h
    rw [if_pos hjson, hvalues]
    refine ⟨_, rfl, ?_, ?_⟩
    · simp [entry, isClean, Diagnostics.hasErrors, List.filter_map, Function.comp_def]
    · intro d hd p hp
      obtain ⟨e, -, rfl⟩ := List.mem_map.1 hd
      cases hp
  · next hjson =>
    obtain ⟨body, hbody, rfl⟩ := Except.map_eq_ok.1 h
    rw [if_neg hjson, hbody]
    refine ⟨_, rfl, ?_, ?_⟩
    · rw [definedValues, Report.bind_eq, constants_eq]
    · intro d hd p hp
      rw [definedValues, Report.bind_eq, constants_eq]
      exact List.mem_append_right _ (List.mem_flatMap.2 ⟨d, hd, hp⟩)

/-- A file adds what its definitions without errors give to variables of the module. -/
theorem result_addValues (origin : String) (entries : List (String × Value)) :
    (addValues m origin values entries).result =
      Fields.insertAll (entries.filter fun e => m.inputs.contains e.1) values := by
  induction entries generalizing values with
  | nil => rfl
  | cons e rest ih =>
    obtain ⟨name, v⟩ := e
    rw [addValues, List.filter_cons]
    split
    · next hdeclared =>
      rw [ih]
      rfl
    · rw [Report.bind_eq, ih]

theorem of_addFiles {paths : List String} {r : Report (Fields Value)}
    (h : l.addFiles m values paths = .ok r) : ∃ ds, l.definitionsOfFiles paths = .ok ds ∧
      r.result = Fields.insertAll ((declaredIn m (ds.filter isClean)).map entry) values ∧
      ∀ d ∈ ds, ∀ p ∈ d.read.diags, p ∈ r.diags := by
  induction paths generalizing values r with
  | nil =>
    cases h
    exact ⟨[], rfl, rfl, List.forall_mem_nil _⟩
  | cons path paths ih =>
    rw [addFiles] at h
    obtain ⟨found, hfound, h⟩ := Except.bind_eq_ok.1 h
    obtain ⟨rest, hrest, rfl⟩ := Except.map_eq_ok.1 h
    obtain ⟨here, hhere, hresult, hreported⟩ := of_readValues hfound
    obtain ⟨ds, hds, hmore, htold⟩ := ih hrest
    refine ⟨here ++ ds, ?_, ?_, ?_⟩
    · rw [definitionsOfFiles, hhere, hds]
      rfl
    · rw [hmore, result_addValues, hresult, ← Fields.insertAll_append]
      simp [declaredIn, entry, List.filter_map, Function.comp_def]
    · intro d hd p hp
      rcases List.mem_append.1 hd with hd | hd
      · exact List.mem_append_left _ (List.mem_append_left _ (hreported d hd p hp))
      · exact List.mem_append_right _ (htold d hd p hp)

/-- An override counts whatever it gives. -/
theorem of_addOverrides {texts : List String} {r : Report (Fields Value)}
    (h : addOverrides library m values texts = .ok r) :
    ∃ ds, definitionsOfOverrides library m texts = .ok ds ∧ declaredIn m ds = ds ∧
      r.result = Fields.insertAll (ds.map entry) values ∧
      ∀ d ∈ ds, ∀ p ∈ d.read.diags, p ∈ r.diags := by
  induction texts generalizing values r with
  | nil =>
    cases h
    exact ⟨[], rfl, rfl, rfl, List.forall_mem_nil _⟩
  | cons text texts ih =>
    rw [addOverrides] at h
    rw [definitionsOfOverrides]
    cases hsplit : splitOverride? text with
    | none =>
      rw [hsplit] at h
      obtain ⟨rest, hrest, rfl⟩ := Except.map_eq_ok.1 h
      obtain ⟨ds, hds, hdeclared, hresult, hreported⟩ := ih hrest
      exact ⟨ds, hds, hdeclared, hresult,
        fun d hd p hp => List.mem_cons_of_mem _ (hreported d hd p hp)⟩
    | some parts =>
      obtain ⟨name, value⟩ := parts
      rw [hsplit] at h
      dsimp only at h ⊢
      cases hname : m.inputs.get? name with
      | none =>
        rw [hname] at h
        obtain ⟨rest, hrest, rfl⟩ := Except.map_eq_ok.1 h
        obtain ⟨ds, hds, hdeclared, hresult, hreported⟩ := ih hrest
        exact ⟨ds, hds, hdeclared, hresult,
          fun d hd p hp => List.mem_cons_of_mem _ (hreported d hd p hp)⟩
      | some v =>
        rw [hname] at h
        obtain ⟨read, hread, h⟩ := Except.bind_eq_ok.1 h
        obtain ⟨rest, hrest, rfl⟩ := Except.map_eq_ok.1 h
        obtain ⟨ds, hds, hdeclared, hresult, hreported⟩ := ih hrest
        have hcontains : m.inputs.contains name = true := by rw [Fields.contains, hname]; rfl
        refine ⟨⟨name, read⟩ :: ds, ?_, ?_, hresult, ?_⟩
        · dsimp only
          rw [hread, hds]
          rfl
        · rw [declaredIn, List.filter_cons, if_pos hcontains]
          exact congrArg _ hdeclared
        · refine List.forall_mem_cons.2 ⟨?_, ?_⟩
          · exact fun p hp => List.mem_append_left _ hp
          · exact fun d hd p hp => List.mem_append_right _ (hreported d hd p hp)

end Files

/-- The files with values: those of fixed names, then the others of the directory, in order of
name, then those of the options. -/
theorem of_valueFiles {l : Loader} {paths : List String} (h : l.valueFiles = .ok paths) :
    ∃ entries, l.files.find l.base = .ok (.directory entries) ∧
      (l.files.top.Ordered → Fields.Sorted entries) ∧
      paths = (standardFiles.map (Text.Path.join l.base)).filter l.files.isFile ++
        (entries.map fun e => Text.Path.join l.base e.1).filter
          (l.isFileNamed automaticSuffixes) ++
        l.options.variableFiles.map (Text.Path.join l.base) := by
  obtain ⟨listing, hlisting, h⟩ := Except.bind_eq_ok.1 h
  cases h
  unfold listed at hlisting
  cases hlist : l.files.list l.base with
  | error fault =>
    rw [hlist] at hlisting
    cases hlisting
  | ok found =>
    rw [hlist] at hlisting
    cases hlisting
    obtain ⟨entries, hfind, rfl⟩ := FileTree.of_list hlist
    exact ⟨entries, hfind, fun ht => (FileTree.ordered_of_find ht hfind).sorted, rfl⟩

/-- A variable has the value of its last definition, where one in a file counts only without errors
and an override always does. This is the last definition without errors exactly if the last override
of the variable has none or gives the same value. What is wrong with a definition is reported. -/
theorem variableTable_last {l : Loader} {root : Module} {r : Report VariableTable}
    (h : l.variableTable root = .ok r) : ∃ entries paths files overrides values,
      l.files.find l.base = .ok (.directory entries) ∧
      (l.files.top.Ordered → Fields.Sorted entries) ∧
      paths = (standardFiles.map (Text.Path.join l.base)).filter l.files.isFile ++
        (entries.map fun e => Text.Path.join l.base e.1).filter
          (l.isFileNamed automaticSuffixes) ++
        l.options.variableFiles.map (Text.Path.join l.base) ∧
      l.definitionsOfFiles paths = .ok files ∧
      definitionsOfOverrides l.library root l.options.overrides = .ok overrides ∧
      r.result = [("", values)] ∧ Fields.Sorted values ∧
      (∀ d ∈ files ++ overrides, ∀ p ∈ d.read.diags, p ∈ r.diags) ∧
      (∀ name, Fields.get? name values =
        if root.inputs.contains name then value? name (files.filter isClean ++ overrides)
        else none) ∧
      ∀ name, root.inputs.contains name = true →
        (Fields.get? name values = value? name ((files ++ overrides).filter isClean) ↔
          ∀ d, last? name overrides = some d → d.isClean = true ∨
            value? name ((files ++ overrides).filter isClean) = some d.read.result) := by
  obtain ⟨paths, hpaths, h⟩ := Except.bind_eq_ok.1 h
  obtain ⟨fromFiles, hfiles, h⟩ := Except.bind_eq_ok.1 h
  obtain ⟨all, hall, rfl⟩ := Except.map_eq_ok.1 h
  obtain ⟨entries, hfind, hentries, hpaths⟩ := of_valueFiles hpaths
  obtain ⟨files, hfileDefinitions, hfileValues, hfileDiags⟩ := of_addFiles hfiles
  obtain ⟨overrides, hoverrides, hdeclared, hvalues, hdiags⟩ := of_addOverrides hall
  have hall : all.result =
      Fields.insertAll ((declaredIn root (files.filter isClean ++ overrides)).map entry) [] := by
    have hsplit : declaredIn root (files.filter isClean ++ overrides) =
        declaredIn root (files.filter isClean) ++ overrides := by
      rw [declaredIn, List.filter_append]
      exact congrArg _ hdeclared
    rw [hvalues, hfileValues, ← Fields.insertAll_append, ← List.map_append, hsplit]
  have hget (name : String) : Fields.get? name all.result =
      if root.inputs.contains name then value? name (files.filter isClean ++ overrides)
      else none := by
    rw [hall, Definition.get?_added]
  refine ⟨entries, paths, files, overrides, all.result, hfind, hentries, hpaths, hfileDefinitions,
    hoverrides, rfl, ?_, ?_, hget, ?_⟩
  · rw [hall]
    exact Fields.sorted_insertAll .nil _
  · intro d hd p hp
    rcases List.mem_append.1 hd with hd | hd
    · exact List.mem_append_left _ (hfileDiags d hd p hp)
    · exact List.mem_append_right _ (hdiags d hd p hp)
  · intro name hname
    rw [hget, if_pos hname]
    exact Definition.value?_overridden_iff name files overrides

/-- A list of texts, which the root module of the directory declares. -/
def names : InputVariable :=
  { (default : InputVariable) with
    name := "names", ty := .list .string, constraint := .list .string }

def rootOfNames : Module := { Module.empty "." with inputs := [("names", names)] }

/-- A directory with a file that gives names, and an override. -/
def overriding (text : String) : Loader :=
  ⟨.ofFiles ["work"] [] [("terraform.tfvars", "names = [\"a\"]\n")], fun _ _ => none, ".",
    ⟨.all, [], [text]⟩, []⟩

/-- An override without errors wins. -/
theorem variableTable_last_names : ∃ r entries values,
    (overriding "names=[]").variableTable rootOfNames = .ok r ∧ Fields.Sorted entries ∧
      (overriding "names=[]").files.find "." = .ok (.directory entries) ∧
      r.result = [("", values)] ∧ Fields.Sorted values := by
  cases h : (overriding "names=[]").variableTable rootOfNames with
  | error fault =>
    have hok : ((overriding "names=[]").variableTable rootOfNames).toOption.isSome = true := by
      decide +kernel
    rw [h] at hok
    cases hok
  | ok r =>
    obtain ⟨entries, paths, files, overrides, values, hfind, hentries, -, -, -, hresult, hsorted,
      -⟩ := variableTable_last h
    have hordered : (overriding "names=[]").files.top.Ordered :=
      FileTree.ordered_ofFiles ["work"] [] [("terraform.tfvars", "names = [\"a\"]\n")]
    exact ⟨r, entries, values, rfl, hentries hordered, hfind, hresult, hsorted⟩

/-- An override with an error takes the place of the value from the file. -/
theorem variableTable_not_last_clean :
    ((overriding "names=[foo]").variableTable rootOfNames).toOption.map (fun r =>
      (r.result.get? "").map fun values => (values.get? "names").map Value.isKnown) =
        some (some (some false)) ∧
    ((overriding "names=[foo]").definitionsOfFiles ["./terraform.tfvars"]).toOption.map (fun ds =>
      (last? "names" (ds.filter isClean)).map fun d => d.read.result.isKnown) =
        some (some true) ∧
    (definitionsOfOverrides (fun _ _ => none) rootOfNames ["names=[foo]"]).toOption.map
      (fun ds => ds.map isClean) = some [false] := by
  refine ⟨?_, ?_, ?_⟩
  · decide +kernel
  · decide +kernel
  · decide +kernel

end Loader

end StaticConfig
