import Mathlib.Data.List.Nodup
import Mathlib.Data.Prod.Basic
import StaticConfig.Proofs.Declaring.Reported
import StaticConfig.Proofs.Fields

/-!
Which declarations a module keeps. Under each key it has the first declaration that can be read, and
each later one with the key is reported once. So if no key occurs twice, the order of the files does
not matter.
-/
namespace StaticConfig

/-- A declaration of a module. -/
inductive Declaration where
  | input (v : InputVariable)
  | localValue (l : LocalValue)
  | output (o : OutputValue)
  | call (c : ModuleCall)
  | resource (r : Resource)

/-- The maps that a module has its declarations in. -/
inductive Shelf where
  | inputs
  | locals
  | outputs
  | calls
  | resources
  | data
  deriving DecidableEq

namespace Declaration

def shelf : Declaration → Shelf
  | input _ => .inputs
  | localValue _ => .locals
  | output _ => .outputs
  | call _ => .calls
  | resource r =>
    match r.mode with
    | .managed => .resources
    | .data => .data

def key : Declaration → String
  | input v => v.name
  | localValue l => l.name
  | output o => o.name
  | call c => c.name
  | resource r => r.key

/-- Where a declaration is kept. Two with one slot cannot both be. -/
def slot (d : Declaration) : Shelf × String := (d.shelf, d.key)

def declared : Declaration → Span
  | input v => v.declared
  | localValue l => l.declared
  | output o => o.declared
  | call c => c.declared
  | resource r => r.declared

/-- The diagnostic about a declaration whose slot is taken by one at the place. -/
def repeatOf (place : Span) : Declaration → Diagnostic
  | input v => Module.duplicateVariable v { v with declared := place }
  | localValue l => Module.duplicateLocal l { l with declared := place }
  | output o => Module.duplicateOutput o { o with declared := place }
  | call c => Module.duplicateCall c { c with declared := place }
  | resource r => Module.duplicateResource r { r with declared := place }

theorem subject_repeatOf (place : Span) (d : Declaration) :
    (d.repeatOf place).subject = some d.declared := by
  cases d <;> rfl

theorem isRepeat_repeatOf (place : Span) (d : Declaration) :
    (d.repeatOf place).isRepeat = true := by
  cases d with
  | resource r =>
    obtain ⟨mode, type, name, body, count, forEach, declared, typeSpan⟩ := r
    cases mode with
    | managed =>
      simp [repeatOf, Module.duplicateResource, Module.problem, Diagnostic.errorAt,
        Diagnostic.isRepeat, Text.startsWith, List.isPrefixOf]
    | data =>
      simp [repeatOf, Module.duplicateResource, Module.problem, Diagnostic.errorAt,
        Diagnostic.isRepeat, Text.startsWith, List.isPrefixOf]
  | _ =>
    simp [repeatOf, Module.duplicateVariable, Module.duplicateLocal, Module.duplicateOutput,
      Module.duplicateCall, Module.problem, Diagnostic.errorAt, Diagnostic.isRepeat,
      Text.startsWith, List.isPrefixOf]

/-- The first of the declarations with the slot. -/
def first? (slot : Shelf × String) (ds : List Declaration) : Option Declaration :=
  ds.find? fun d => d.slot = slot

/-- The declarations whose slot is taken by one that comes before, each with the first such. -/
def repeated (seen : List Declaration) : List Declaration → List (Declaration × Declaration)
  | [] => []
  | d :: ds =>
    ((first? d.slot seen).map fun old => (d, old)).toList ++ repeated (seen ++ [d]) ds

theorem repeated_append (seen ds es : List Declaration) :
    repeated seen (ds ++ es) = repeated seen ds ++ repeated (seen ++ ds) es := by
  induction ds generalizing seen with
  | nil => rw [List.nil_append, List.append_nil, repeated, List.nil_append]
  | cons d ds ih => simp only [List.cons_append, repeated, ih, List.append_assoc, List.nil_append]

theorem first?_append_singleton (slot : Shelf × String) (ds : List Declaration) (d : Declaration) :
    first? slot (ds ++ [d]) = (first? slot ds).or (if d.slot = slot then some d else none) := by
  rw [first?, List.find?_append]
  congr 1
  simp [List.find?_singleton]

/-- Where no slot is taken twice, the first with a slot is the only one. -/
theorem first?_eq_some_iff {ds : List Declaration} (h : (ds.map slot).Nodup)
    {place : Shelf × String} {d : Declaration} :
    first? place ds = some d ↔ d ∈ ds ∧ d.slot = place := by
  constructor
  · intro hd
    exact ⟨List.mem_of_find?_eq_some hd, by simpa using List.find?_some hd⟩
  · rintro ⟨hd, rfl⟩
    obtain ⟨e, he⟩ : ∃ e, first? d.slot ds = some e := by
      rw [← Option.isSome_iff_exists, first?, List.find?_isSome]
      exact ⟨d, hd, by simp⟩
    have hmem := List.mem_of_find?_eq_some he
    have hslot : e.slot = d.slot := by simpa using List.find?_some he
    rw [he, List.inj_on_of_nodup_map h hmem hd hslot]

theorem first?_perm {ds es : List Declaration} (hperm : ds.Perm es)
    (h : (ds.map slot).Nodup) (place : Shelf × String) : first? place ds = first? place es := by
  have hes : (es.map slot).Nodup := (hperm.map slot).nodup_iff.1 h
  ext d
  rw [first?_eq_some_iff h, first?_eq_some_iff hes, hperm.mem_iff]

end Declaration

namespace Module

variable {library : Library} {dir : String} {seen : List Declaration}

/-- The entries of one of the maps. -/
def on (m : Module) : Shelf → Fields Declaration
  | .inputs => m.inputs.mapValues .input
  | .locals => m.locals.mapValues .localValue
  | .outputs => m.outputs.mapValues .output
  | .calls => m.calls.mapValues .call
  | .resources => m.resources.mapValues .resource
  | .data => m.data.mapValues .resource

def add (m : Module) : Declaration → Report Module
  | .input v => m.addVariable v
  | .localValue l => m.addLocal l
  | .output o => m.addOutput o
  | .call c => m.addCall c
  | .resource r => m.addResource r

def addAll (m : Module) : List Declaration → Report Module
  | [] => pure m
  | d :: ds => do
    let m ← m.add d
    m.addAll ds

/-- At most one declaration, of one kind. -/
def made {α : Type} (make : α → Declaration) (read : Report (Option α)) :
    Report (List Declaration) := do
  let found ← read
  pure (found.toList.map make)

/-- What can be read of the declarations of a block. -/
def readings (library : Library) (b : Block) : Report (List Declaration) :=
  if b.type = "variable" then made .input (readVariable library b)
  else if b.type = "locals" then
    pure (b.body.attributes.map fun e => .localValue (localOf e.2))
  else if b.type = "output" then made .output (readOutput library b)
  else if b.type = "module" then made .call (readCall library b)
  else if b.type = "resource" then made .resource (readResource .managed b)
  else if b.type = "data" then made .resource (readResource .data b)
  else pure []

/-- The declarations of the files that can be read, in the order of files, blocks and
attributes. -/
def declarations (library : Library) (files : List Body) : List Declaration :=
  (files.flatMap Body.blocks).flatMap fun b => (readings library b).result

theorem addLocals_eq (m : Module) (attributes : List (String × Attribute)) :
    m.addLocals attributes = m.addAll (attributes.map fun e => .localValue (localOf e.2)) := by
  induction attributes generalizing m with
  | nil => rfl
  | cons e rest ih => simp only [addLocals, List.map_cons, addAll, add, ih]

theorem addRead_eq {α : Type} (m : Module) {addTo : Module → α → Report Module}
    (make : α → Declaration) (hadd : ∀ m a, addTo m a = m.add (make a))
    (read : Report (Option α)) : m.addRead addTo read = (do
      let ds ← made make read
      m.addAll ds) := by
  obtain ⟨found, ds⟩ := read
  cases found with
  | none => simp [addRead, made, addAll, Report.bind_eq, Report.pure_eq]
  | some a => simp [addRead, made, addAll, hadd, Report.bind_eq, Report.pure_eq]

theorem addBlock_eq (m : Module) (b : Block) :
    addBlock library m b = (do let ds ← readings library b; m.addAll ds) := by
  unfold addBlock readings
  split
  · exact addRead_eq m .input (fun _ _ => rfl) _
  · split
    · exact addLocals_eq m _
    · split
      · exact addRead_eq m .output (fun _ _ => rfl) _
      · split
        · exact addRead_eq m .call (fun _ _ => rfl) _
        · split
          · exact addRead_eq m .resource (fun _ _ => rfl) _
          · split
            · exact addRead_eq m .resource (fun _ _ => rfl) _
            · rfl

theorem fresh_made {α : Type} (make : α → Declaration) {read : Report (Option α)}
    (h : Fresh read) : Fresh (made make read) :=
  Eval.only_bind h fun _ => Eval.only_pure _

theorem fresh_readings (b : Block) : Fresh (readings library b) := by
  unfold readings
  repeat' split
  · exact fresh_made _ (fresh_readVariable b)
  · exact Eval.only_pure _
  · exact fresh_made _ (fresh_readOutput b)
  · exact fresh_made _ (fresh_readCall b)
  · exact fresh_made _ (fresh_readResource .managed b)
  · exact fresh_made _ (fresh_readResource .data b)
  · exact Eval.only_pure _

section Adding

variable {α : Type} {m : Module} {make : α → Declaration} {fields : Fields α} {name : String}
  {a : α} {duplicate : α → Diagnostic} {put : Fields α → Module}

theorem declared_of_some {old : Declaration}
    (h : (fields.mapValues make).get? name = some old)
    (hduplicate : ∀ b, duplicate b = (make a).repeatOf (make b).declared) (hput : put fields = m) :
    (do let fields ← declare name a duplicate fields; pure (put fields)) =
      (⟨m, [(make a).repeatOf old.declared]⟩ : Report Module) := by
  rw [Fields.get?_mapValues] at h
  obtain ⟨b, hb, rfl⟩ := Option.map_eq_some_iff.1 h
  simp only [declare, hb, Report.bind_eq, Report.pure_eq, List.append_nil, hduplicate, hput]

theorem declared_of_none (h : (fields.mapValues make).get? name = none) :
    (do let fields ← declare name a duplicate fields; pure (put fields)) =
      (⟨put (fields.insert name a), []⟩ : Report Module) := by
  rw [Fields.get?_mapValues, Option.map_eq_none_iff] at h
  simp only [declare, h, Report.bind_eq, Report.pure_eq, List.append_nil]

end Adding

/-- A slot that is taken stays as it is, and the declaration is reported. -/
theorem add_of_some {m : Module} {d old : Declaration}
    (h : (m.on d.shelf).get? d.key = some old) : m.add d = ⟨m, [d.repeatOf old.declared]⟩ := by
  cases d with
  | input v => exact declared_of_some h (fun _ => rfl) rfl
  | localValue l => exact declared_of_some h (fun _ => rfl) rfl
  | output o => exact declared_of_some h (fun _ => rfl) rfl
  | call c => exact declared_of_some h (fun _ => rfl) rfl
  | resource r =>
    obtain ⟨mode, type, name, body, count, forEach, declared, typeSpan⟩ := r
    cases mode with
    | managed => exact declared_of_some h (fun _ => rfl) rfl
    | data => exact declared_of_some h (fun _ => rfl) rfl

/-- A declaration takes its slot if that is free, and no other slot. -/
theorem add_of_none {m : Module} {d : Declaration} (h : (m.on d.shelf).get? d.key = none) :
    (m.add d).diags = [] ∧ (m.add d).result.dir = m.dir ∧ ∀ s, (m.add d).result.on s =
      if s = d.shelf then (m.on s).insert d.key d else m.on s := by
  have hown {r : Report Module} {m' : Module} (hr : r = ⟨m', []⟩) (hdir : m'.dir = m.dir)
      (hon : ∀ s, m'.on s = if s = d.shelf then (m.on s).insert d.key d else m.on s) :
      r.diags = [] ∧ r.result.dir = m.dir ∧ ∀ s, r.result.on s =
        if s = d.shelf then (m.on s).insert d.key d else m.on s := by
    subst hr
    exact ⟨rfl, hdir, hon⟩
  cases d with
  | input v =>
    refine hown (declared_of_none h) rfl fun s => ?_
    cases s with
    | inputs => exact Fields.mapValues_insert _ _ _ _
    | _ => rfl
  | localValue l =>
    refine hown (declared_of_none h) rfl fun s => ?_
    cases s with
    | locals => exact Fields.mapValues_insert _ _ _ _
    | _ => rfl
  | output o =>
    refine hown (declared_of_none h) rfl fun s => ?_
    cases s with
    | outputs => exact Fields.mapValues_insert _ _ _ _
    | _ => rfl
  | call c =>
    refine hown (declared_of_none h) rfl fun s => ?_
    cases s with
    | calls => exact Fields.mapValues_insert _ _ _ _
    | _ => rfl
  | resource r =>
    obtain ⟨mode, type, name, body, count, forEach, declared, typeSpan⟩ := r
    cases mode with
    | managed =>
      refine hown (declared_of_none h) rfl fun s => ?_
      cases s with
      | resources => exact Fields.mapValues_insert _ _ _ _
      | _ => rfl
    | data =>
      refine hown (declared_of_none h) rfl fun s => ?_
      cases s with
      | data => exact Fields.mapValues_insert _ _ _ _
      | _ => rfl

/-- The module has the first of the declarations in each slot, and nothing else. -/
structure Keeps (m : Module) (dir : String) (ds : List Declaration) : Prop where
  dir : m.dir = dir
  sorted : ∀ s, Fields.Sorted (m.on s)
  first : ∀ s key, (m.on s).get? key = Declaration.first? (s, key) ds

theorem keeps_empty (dir : String) : (empty dir).Keeps dir [] := by
  refine ⟨rfl, ?_, ?_⟩
  · intro s
    cases s <;> exact .nil
  · intro s key
    cases s <;> rfl

/-- One more declaration is kept if its slot is free, and reported otherwise. -/
theorem Keeps.add {m : Module} (h : m.Keeps dir seen) (d : Declaration) :
    (m.add d).result.Keeps dir (seen ++ [d]) ∧
      (m.add d).diags =
        ((Declaration.first? d.slot seen).map fun old => d.repeatOf old.declared).toList := by
  have hslot : (m.on d.shelf).get? d.key = Declaration.first? d.slot seen := h.first _ _
  cases hfound : Declaration.first? d.slot seen with
  | some old =>
    rw [hfound] at hslot
    rw [add_of_some hslot]
    refine ⟨⟨h.dir, h.sorted, fun s key => ?_⟩, rfl⟩
    rw [Declaration.first?_append_singleton, h.first s key]
    split
    · next heq =>
      rw [← heq, hfound]
      rfl
    · rw [Option.or_none]
  | none =>
    rw [hfound] at hslot
    obtain ⟨hdiags, hdir, hon⟩ := add_of_none hslot
    refine ⟨⟨hdir.trans h.dir, fun s => ?_, fun s key => ?_⟩, hdiags⟩
    · rw [hon]
      split
      · exact Fields.sorted_insert (h.sorted s) _ _
      · exact h.sorted s
    · rw [hon, Declaration.first?_append_singleton, ← h.first s key]
      by_cases hs : s = d.shelf
      · subst hs
        rw [if_pos rfl]
        by_cases hkey : key = d.key
        · subst hkey
          have hown : d.slot = (d.shelf, d.key) := rfl
          rw [Fields.get?_insert_self, hslot, if_pos hown, Option.none_or]
        · have hne : ¬ d.slot = (d.shelf, key) := fun heq => hkey (congrArg Prod.snd heq).symm
          rw [Fields.get?_insert_of_ne hkey, if_neg hne, Option.or_none]
      · have hne : ¬ d.slot = (s, key) := fun heq => hs (congrArg Prod.fst heq).symm
        rw [if_neg hs, if_neg hne, Option.or_none]

/-- What is reported about the declarations that come after others with their slots. -/
def repeats (seen ds : List Declaration) : Diagnostics :=
  (Declaration.repeated seen ds).map fun p => p.1.repeatOf p.2.declared

theorem repeats_cons (seen : List Declaration) (d : Declaration) (ds : List Declaration) :
    repeats seen (d :: ds) =
      ((Declaration.first? d.slot seen).map fun old => d.repeatOf old.declared).toList ++
        repeats (seen ++ [d]) ds := by
  rw [repeats, Declaration.repeated, List.map_append, repeats]
  cases Declaration.first? d.slot seen <;> rfl

theorem repeats_append (seen ds es : List Declaration) :
    repeats seen (ds ++ es) = repeats seen ds ++ repeats (seen ++ ds) es := by
  rw [repeats, Declaration.repeated_append, List.map_append, repeats, repeats]

theorem isRepeat_of_mem_repeats {ds : List Declaration} :
    ∀ p ∈ repeats seen ds, p.isRepeat = true := by
  intro p hp
  obtain ⟨q, -, rfl⟩ := List.mem_map.1 hp
  exact Declaration.isRepeat_repeatOf _ _

theorem Keeps.addAll {m : Module} (h : m.Keeps dir seen) (ds : List Declaration) :
    (m.addAll ds).result.Keeps dir (seen ++ ds) ∧ (m.addAll ds).diags = repeats seen ds := by
  induction ds generalizing m seen with
  | nil =>
    rw [List.append_nil]
    exact ⟨h, rfl⟩
  | cons d ds ih =>
    obtain ⟨hkeeps, hdiags⟩ := h.add d
    obtain ⟨hrest, hmore⟩ := ih hkeeps
    rw [List.append_assoc, List.singleton_append] at hrest
    rw [addAll, Report.bind_eq, repeats_cons]
    exact ⟨hrest, congrArg₂ (· ++ ·) hdiags hmore⟩

/-- A block adds what can be read of it. Of what is reported, only that about slots that are taken
comes from outside of the block. -/
theorem Keeps.addBlocks {m : Module} (h : m.Keeps dir seen) (library : Library)
    (bs : List Block) :
    (Module.addBlocks library m bs).result.Keeps dir
        (seen ++ bs.flatMap fun b => (readings library b).result) ∧
      (Module.addBlocks library m bs).diags.filter Diagnostic.isRepeat =
        repeats seen (bs.flatMap fun b => (readings library b).result) := by
  induction bs generalizing m seen with
  | nil =>
    rw [List.flatMap_nil, List.append_nil]
    exact ⟨h, rfl⟩
  | cons b bs ih =>
    obtain ⟨hkeeps, hdiags⟩ := h.addAll (readings library b).result
    obtain ⟨hrest, hmore⟩ := ih hkeeps
    have hread : (readings library b).diags.filter Diagnostic.isRepeat = [] :=
      List.filter_eq_nil_iff.2 fun d hd => by simp [fresh_readings b d hd]
    have hown : (repeats seen (readings library b).result).filter Diagnostic.isRepeat =
        repeats seen (readings library b).result :=
      List.filter_eq_self.2 isRepeat_of_mem_repeats
    rw [List.append_assoc] at hrest
    simp only [Module.addBlocks, addBlock_eq, Report.bind_eq, List.flatMap_cons, List.filter_append,
      repeats_append, hread, hdiags, hown, List.nil_append]
    exact ⟨hrest, congrArg _ hmore⟩

theorem keeps_ofBodies (library : Library) (dir : String) (files : List Body) :
    (ofBodies library dir files).result.Keeps dir (declarations library files) ∧
      (ofBodies library dir files).diags.filter Diagnostic.isRepeat =
        repeats [] (declarations library files) := by
  have h := (keeps_empty dir).addBlocks library (files.flatMap Body.blocks)
  rwa [List.nil_append] at h

/-- What a module has in its maps, and where it comes from, is all there is of it. -/
theorem eq_of_on {m m' : Module} (hdir : m.dir = m'.dir) (h : ∀ s, m.on s = m'.on s) : m = m' := by
  have hmaps {α : Type} {make : α → Declaration} (hmake : Function.Injective make)
      {as bs : Fields α} (heq : as.mapValues make = bs.mapValues make) : as = bs :=
    List.map_injective_iff.2 (Function.Injective.prodMap Function.injective_id hmake) heq
  obtain ⟨dir, inputs, locals, outputs, calls, resources, data⟩ := m
  obtain ⟨dir', inputs', locals', outputs', calls', resources', data'⟩ := m'
  obtain rfl : dir = dir' := hdir
  obtain rfl : inputs = inputs' := hmaps (fun _ _ => Declaration.input.inj) (h .inputs)
  obtain rfl : locals = locals' := hmaps (fun _ _ => Declaration.localValue.inj) (h .locals)
  obtain rfl : outputs = outputs' := hmaps (fun _ _ => Declaration.output.inj) (h .outputs)
  obtain rfl : calls = calls' := hmaps (fun _ _ => Declaration.call.inj) (h .calls)
  obtain rfl : resources = resources' :=
    hmaps (fun _ _ => Declaration.resource.inj) (h .resources)
  obtain rfl : data = data' := hmaps (fun _ _ => Declaration.resource.inj) (h .data)
  rfl

/-- Where no slot is taken twice, the order of the declarations does not matter. -/
theorem Keeps.eq_of_perm {m m' : Module} {ds ds' : List Declaration} (h : m.Keeps dir ds)
    (h' : m'.Keeps dir ds') (hperm : ds.Perm ds') (hslots : (ds.map Declaration.slot).Nodup) :
    m = m' := by
  refine eq_of_on (h.dir.trans h'.dir.symm) fun s => ?_
  refine Fields.eq_of_get? (h.sorted s) (h'.sorted s) fun key => ?_
  rw [h.first, h'.first]
  exact Declaration.first?_perm hperm hslots _

end Module

/-! ## Keys of resources -/

/-- A text is split at its last dot in only one way. -/
theorem eq_of_last_dot {as as' bs bs' : List Char} (hbs : '.' ∉ bs) (hbs' : '.' ∉ bs')
    (h : as ++ '.' :: bs = as' ++ '.' :: bs') : as = as' ∧ bs = bs' := by
  rcases List.append_eq_append_iff.1 h with ⟨cs, rfl, hcs⟩ | ⟨cs, rfl, hcs⟩
  · cases cs with
    | nil => simpa using hcs
    | cons c cs =>
      obtain ⟨-, rfl⟩ := List.cons.inj hcs
      simp at hbs
  · cases cs with
    | nil => simpa using hcs.symm
    | cons c cs =>
      obtain ⟨-, rfl⟩ := List.cons.inj hcs
      simp at hbs'

/-- The type of a resource may have dots, but the name has none. -/
theorem Resource.eq_of_key {r r' : Resource} (hname : Text.isIdentifier r.name = true)
    (hname' : Text.isIdentifier r'.name = true) (h : r.key = r'.key) :
    r.type = r'.type ∧ r.name = r'.name := by
  have hchars := congrArg String.toList h
  simp only [key, String.toList_append] at hchars
  obtain ⟨htype, hrest⟩ := eq_of_last_dot (Text.dot_not_mem_of_isIdentifier hname)
    (Text.dot_not_mem_of_isIdentifier hname') (by simpa using hchars)
  exact ⟨String.toList_injective htype, String.toList_injective hrest⟩

namespace Module

variable {library : Library}

theorem isIdentifier_of_readResource {mode : ResourceMode} {b : Block} {r : Resource}
    (h : (readResource mode b).result = some r) : Text.isIdentifier r.name = true := by
  unfold readResource at h
  dsimp only at h
  split at h
  · split at h
    · next hname hlabels _ =>
      cases h
      unfold checkName at hname
      split at hname
      · next hvalid => simpa [hlabels] using hvalid
      · cases hname
    · cases h
  · cases h

theorem isIdentifier_of_declarations {files : List Body} {r : Resource}
    (h : .resource r ∈ declarations library files) : Text.isIdentifier r.name = true := by
  obtain ⟨b, -, hb⟩ := List.mem_flatMap.1 h
  have hmade {α : Type} {make : α → Declaration} {read : Report (Option α)}
      (hr : .resource r ∈ (made make read).result) :
      ∃ a, read.result = some a ∧ make a = .resource r := by
    obtain ⟨a, ha, hmake⟩ := List.mem_map.1 hr
    exact ⟨a, Option.mem_toList.1 ha, hmake⟩
  unfold readings at hb
  repeat' split at hb
  · obtain ⟨v, -, hv⟩ := hmade hb
    cases hv
  · obtain ⟨e, -, he⟩ := List.mem_map.1 hb
    cases he
  · obtain ⟨o, -, ho⟩ := hmade hb
    cases ho
  · obtain ⟨c, -, hc⟩ := hmade hb
    cases hc
  · obtain ⟨r', hr', heq⟩ := hmade hb
    cases heq
    exact isIdentifier_of_readResource hr'
  · obtain ⟨r', hr', heq⟩ := hmade hb
    cases heq
    exact isIdentifier_of_readResource hr'
  · cases hb

theorem declarations_perm {files files' : List Body} (h : files.Perm files') :
    (declarations library files).Perm (declarations library files') :=
  (h.flatMap_right Body.blocks).flatMap_right _

/-- A module has the first declaration that can be read under each key of each kind, and nothing
else. Every other one is reported once, where it stands. Only resources of one type and name share
a key. Without such repetitions the files may come in any order. -/
theorem ofBodies_keeps_firsts (library : Library) (dir : String) (files : List Body) :
    (∀ s, Fields.Sorted ((ofBodies library dir files).result.on s) ∧
      ∀ key, Fields.get? key ((ofBodies library dir files).result.on s) =
        (declarations library files).find? fun d => d.slot = (s, key)) ∧
    (ofBodies library dir files).diags.filter Diagnostic.isRepeat =
      (Declaration.repeated [] (declarations library files)).map
        (fun p => p.1.repeatOf p.2.declared) ∧
    (∀ (d : Declaration) (place : Span),
      (d.repeatOf place).isRepeat = true ∧ (d.repeatOf place).subject = some d.declared) ∧
    (∀ r r' : Resource, .resource r ∈ declarations library files →
      .resource r' ∈ declarations library files → r.key = r'.key →
        r.type = r'.type ∧ r.name = r'.name) ∧
    (∀ files' : List Body, files.Perm files' →
      ((declarations library files).map Declaration.slot).Nodup →
        (ofBodies library dir files').result = (ofBodies library dir files).result) := by
  obtain ⟨hkeeps, hrepeats⟩ := keeps_ofBodies library dir files
  refine ⟨fun s => ⟨hkeeps.sorted s, hkeeps.first s⟩, hrepeats, ?_, ?_, ?_⟩
  · intro d place
    exact ⟨d.isRepeat_repeatOf place, d.subject_repeatOf place⟩
  · intro r r' hr hr' hkey
    exact Resource.eq_of_key (isIdentifier_of_declarations hr) (isIdentifier_of_declarations hr')
      hkey
  · intro files' hperm hslots
    exact ((keeps_ofBodies library dir files).1.eq_of_perm (keeps_ofBodies library dir files').1
      (declarations_perm hperm) hslots).symm

/-- Two files with a resource each, in both orders. -/
theorem ofBodies_either_order :
    let file (labels : List String) : Body :=
      ⟨default, [], [⟨default, default, "data", labels, [default, default], default⟩]⟩
    (ofBodies (fun _ _ => none) "." [file ["a", "b"], file ["a.b", "c"]]).result =
      (ofBodies (fun _ _ => none) "." [file ["a.b", "c"], file ["a", "b"]]).result := by
  intro file
  exact (ofBodies_keeps_firsts _ _ _).2.2.2.2 _ (List.Perm.swap _ _ _) (by decide +kernel)

end Module

end StaticConfig
