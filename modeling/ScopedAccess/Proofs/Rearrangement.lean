import Mathlib.Data.List.Perm.Basic
import ScopedAccess.Proofs.DocumentShape
import ScopedAccess.Proofs.Restatement

namespace ScopedAccess

section

open Kdl (Node)

section

variable {κ α : Type} [Key κ] {k : κ} {v : α} {l items : List (κ × α)}

theorem OrderedMap.place_perm (new : ∀ e ∈ l, k ≠ e.1) : (place k v l).Perm ((k, v) :: l) := by
  induction l with
  | nil => exact .refl _
  | cons e rest ih =>
    obtain ⟨here, later⟩ := List.forall_mem_cons.mp new
    unfold place
    rw [if_neg here]
    split
    · exact .refl _
    · exact ((ih later).cons e).trans (.swap _ _ _)

theorem OrderedMap.entries_ofList_perm (distinct : (items.map (·.1)).Nodup) : (ofList items).entries.Perm items := by
  have general : ∀ m : OrderedMap κ α, ((items ++ m.entries).map (·.1)).Nodup →
      (items.foldl (fun m e => m.insert e.1 e.2) m).entries.Perm (items ++ m.entries) := by
    induction items with
    | nil =>
      intro m _
      exact .refl _
    | cons e rest ih =>
      intro m apart
      obtain ⟨absent, others⟩ := List.nodup_cons.mp apart
      have placed : (m.insert e.1 e.2).entries.Perm (e :: m.entries) := by
        apply place_perm
        intro f member same
        apply absent
        exact List.mem_map.mpr ⟨f, List.mem_append_right _ member, same.symm⟩
      have moved : (rest ++ (m.insert e.1 e.2).entries).Perm (e :: (rest ++ m.entries)) :=
        (placed.append_left rest).trans List.perm_middle
      have inner := ih (List.nodup_cons.mp distinct).2 (m.insert e.1 e.2) ((moved.map _).nodup_iff.mpr apart)
      exact inner.trans moved
  simpa [ofList, empty] using general .empty (by simpa [empty] using distinct)

end

def FileTree.Holds (t : FileTree) (nodes : List Node) : Prop :=
  ∃ bytes text, t = .file bytes ∧ String.fromUTF8? bytes = some text ∧ Kdl.parse? text = some nodes

theorem FileTree.Holds.unique {t : FileTree} {nodes others : List Node} (left : t.Holds nodes) (right : t.Holds others) :
    nodes = others := by
  obtain ⟨bytes, text, rfl, decoded, parsed⟩ := left
  obtain ⟨_, _, same, decoded', parsed'⟩ := right
  cases same
  cases decoded.symm.trans decoded'
  exact Option.some.inj (parsed.symm.trans parsed')

def PolicyFolder.isDocument (e : String × FileTree) : Bool := PolicySource.extension? e.1 = some "kdl"

-- The documents of the folder have these nodes together, in some order. No two entries of a folder have one name.
def PolicyFolder.Holds (f : PolicyFolder) (nodes : List Node) : Prop :=
  ∃ entries parts, f.content = some (.folder entries) ∧ (entries.map (·.1)).Nodup ∧
    List.Forall₂ (fun e part => e.2.Holds part) (entries.filter PolicyFolder.isDocument) parts ∧ nodes.Perm parts.flatten

namespace PolicyDocument

variable {l m nodes : List Node} {d e : Declarations}

theorem Shaped.perm (perm : l.Perm m) (shaped : Shaped l) : Shaped m := fun n member => shaped n (perm.mem_iff.mpr member)

theorem perm_of_forall₂ {α β ε : Type} {f : α → Except ε β} {l m : List α} {left right : List β} (perm : l.Perm m)
    (leftEach : List.Forall₂ (fun a b => f a = .ok b) l left) (rightEach : List.Forall₂ (fun a b => f a = .ok b) m right) :
    left.Perm right := by
  obtain ⟨other, each, moved⟩ := List.perm_comp_forall₂ perm.symm leftEach
  have same := (mapM_eq_ok_iff.mpr each).symm.trans (mapM_eq_ok_iff.mpr rightEach)
  cases same
  exact moved.symm

theorem read_perm (perm : l.Perm m) (shaped : Shaped l) (left : Stated l d) (right : Stated m e) :
    d.resources.Perm e.resources ∧ d.links.Perm e.links := by
  obtain ⟨resources, links⟩ := read_iff.mp ⟨shaped, left⟩
  obtain ⟨resources', links'⟩ := read_iff.mp ⟨shaped.perm perm, right⟩
  exact ⟨perm_of_forall₂ (perm.filter _) resources resources', perm_of_forall₂ (perm.filter _) links links'⟩

theorem Stated.unique (shaped : Shaped l) (left : Stated l d) (right : Stated l e) : d = e := by
  have same := (ofDocument_eq_ok_iff.mpr ⟨shaped, left⟩).symm.trans (ofDocument_eq_ok_iff.mpr ⟨shaped, right⟩)
  cases same
  rfl

theorem shaped_nil : Shaped [] := fun _ none => nomatch none

theorem stated_nil : Stated [] .empty := ⟨.nil, .nil⟩

theorem shaped_append_iff : Shaped (l ++ m) ↔ Shaped l ∧ Shaped m := List.forall_mem_append

theorem stated_append (left : Stated l d) (right : Stated m e) : Stated (l ++ m) (d ++ e) := by
  constructor
  · rw [List.filter_append]
    exact List.rel_append left.resources right.resources
  · rw [List.filter_append]
    exact List.rel_append left.links right.links

end PolicyDocument

namespace PolicySource

open PolicyDocument

variable {folder : String} {files : List (String × FileTree)} {file : String × FileTree} {f g : PolicyFolder}
  {nodes l m : List Node} {d e start : Declarations}

theorem append_empty (d : Declarations) : d ++ .empty = d := by
  show Declarations.append d .empty = d
  simp [Declarations.append, Declarations.empty]

theorem append_assoc (d e f : Declarations) : d ++ e ++ f = d ++ (e ++ f) := by
  show Declarations.append (Declarations.append d e) f = Declarations.append d (Declarations.append e f)
  simp [Declarations.append]

theorem readFile_eq_ok_iff : readFile folder start file = .ok d ↔
    ∃ nodes, file.2.Holds nodes ∧ Shaped nodes ∧ ∃ added, Stated nodes added ∧ d = start ++ added := by
  obtain ⟨name, tree⟩ := file
  unfold readFile FileTree.Holds
  cases tree with
  | folder entries => simp
  | file bytes =>
    cases decoded : String.fromUTF8? bytes with
    | none => simp [decoded]
    | some text =>
      simp only [decoded, bind_eq_ok_iff, readDocument_eq_ok_iff, Except.ok.injEq]
      constructor
      · intro given
        obtain ⟨added, ⟨nodes, parsed, shaped, stated⟩, rfl⟩ := given
        exact ⟨nodes, ⟨bytes, text, rfl, decoded, parsed⟩, shaped, added, stated, rfl⟩
      · intro given
        obtain ⟨nodes, ⟨_, _, same, decoded', parsed⟩, shaped, added, stated, rfl⟩ := given
        cases same
        cases decoded.symm.trans decoded'
        exact ⟨added, ⟨nodes, parsed, shaped, stated⟩, rfl⟩

theorem readFiles_eq_ok_iff : files.foldlM (readFile folder) start = .ok d ↔
    ∃ parts, List.Forall₂ (fun e part => e.2.Holds part) files parts ∧ Shaped parts.flatten ∧
      ∃ added, Stated parts.flatten added ∧ d = start ++ added := by
  induction files generalizing start with
  | nil =>
    constructor
    · intro same
      cases same
      exact ⟨[], .nil, shaped_nil, .empty, stated_nil, (append_empty _).symm⟩
    · intro given
      obtain ⟨parts, each, _, added, stated, rfl⟩ := given
      cases each
      cases Stated.unique shaped_nil stated stated_nil
      exact congrArg _ (append_empty start).symm
  | cons file rest ih =>
    simp only [List.foldlM_cons, bind_eq_ok_iff, readFile_eq_ok_iff, ih]
    constructor
    · intro given
      obtain ⟨_, ⟨part, holds, shaped, first, stated, rfl⟩, parts, each, others, later, states, rfl⟩ := given
      refine ⟨part :: parts, .cons holds each, shaped_append_iff.mpr ⟨shaped, others⟩, first ++ later, ?_, ?_⟩
      · exact stated_append stated states
      · exact append_assoc start first later
    · intro given
      obtain ⟨parts, each, shaped, added, stated, rfl⟩ := given
      obtain ⟨part, parts', holds, each', rfl⟩ := List.forall₂_cons_left_iff.mp each
      obtain ⟨here, others⟩ := shaped_append_iff.mp shaped
      obtain ⟨first, states⟩ := exists_stated here
      obtain ⟨later, states'⟩ := exists_stated others
      cases Stated.unique shaped stated (stated_append states states')
      refine ⟨_, ⟨part, holds, here, first, states, rfl⟩, parts', each', others, later, states', ?_⟩
      exact (append_assoc start first later).symm

def documents (entries : List (String × FileTree)) : List (String × FileTree) :=
  (OrderedMap.ofList (entries.filter PolicyFolder.isDocument)).entries

theorem documents_perm {entries : List (String × FileTree)} (distinct : (entries.map (·.1)).Nodup) :
    (documents entries).Perm (entries.filter PolicyFolder.isDocument) := by
  apply OrderedMap.entries_ofList_perm
  exact (List.filter_sublist.map _).nodup distinct

theorem load_folder_iff {entries : List (String × FileTree)} (content : f.content = some (.folder entries)) :
    load (.folder f) = .ok d ↔ ∃ parts, List.Forall₂ (fun e part => e.2.Holds part) (documents entries) parts ∧
      Shaped parts.flatten ∧ Stated parts.flatten d := by
  unfold load readFolder
  simp only [content]
  constructor
  · intro read
    obtain ⟨parts, each, shaped, added, stated, rfl⟩ := readFiles_eq_ok_iff.mp read
    exact ⟨parts, each, shaped, stated⟩
  · intro given
    obtain ⟨parts, each, shaped, stated⟩ := given
    exact readFiles_eq_ok_iff.mpr ⟨parts, each, shaped, d, stated, rfl⟩

theorem holds_of_load {entries : List (String × FileTree)} (content : f.content = some (.folder entries))
    (distinct : (entries.map (·.1)).Nodup) (loaded : load (.folder f) = .ok d) : ∃ nodes, f.Holds nodes := by
  obtain ⟨parts, each, _⟩ := (load_folder_iff content).mp loaded
  obtain ⟨parts', each', _⟩ := List.perm_comp_forall₂ (documents_perm distinct).symm each
  exact ⟨_, entries, parts', content, distinct, each', .refl _⟩

-- A folder is read as its nodes in one order, which their files and the names of these decide.
theorem load_of_holds (holds : f.Holds nodes) :
    ∃ ordered, nodes.Perm ordered ∧ ∀ d, load (.folder f) = .ok d ↔ Shaped ordered ∧ Stated ordered d := by
  obtain ⟨entries, parts, content, distinct, each, together⟩ := holds
  obtain ⟨parts', each', moved⟩ := List.perm_comp_forall₂ (documents_perm distinct) each
  refine ⟨parts'.flatten, together.trans moved.symm.flatten, ?_⟩
  intro d
  rw [load_folder_iff content]
  constructor
  · intro given
    obtain ⟨others, again, read⟩ := given
    have unique : Relator.RightUnique fun (e : String × FileTree) part => e.2.Holds part := fun _ _ _ => FileTree.Holds.unique
    cases List.right_unique_forall₂' unique each' again
    exact read
  · intro read
    exact ⟨parts', each', read⟩

theorem load_perm (left : f.Holds l) (right : g.Holds m) (perm : l.Perm m) (loaded : load (.folder f) = .ok d) :
    ∃ e, load (.folder g) = .ok e ∧ d.resources.Perm e.resources ∧ d.links.Perm e.links := by
  obtain ⟨first, moved, load_iff⟩ := load_of_holds left
  obtain ⟨second, moved', load_iff'⟩ := load_of_holds right
  obtain ⟨shaped, stated⟩ := (load_iff d).mp loaded
  have same : first.Perm second := moved.symm.trans (perm.trans moved')
  obtain ⟨e, stated'⟩ := exists_stated (shaped.perm same)
  exact ⟨e, (load_iff' e).mpr ⟨shaped.perm same, stated'⟩, read_perm same shaped stated stated'⟩

end PolicySource

-- The files are renamed within their extensions and listed in another order, and files with other extensions are added.
def PolicyFolder.Relisted (f g : PolicyFolder) : Prop :=
  ∃ (entries others added : List (String × FileTree)) (rename : String → String),
    f.content = some (.folder entries) ∧ g.content = some (.folder others) ∧
    (entries.map (·.1)).Nodup ∧ (others.map (·.1)).Nodup ∧
    others.Perm (entries.map (fun e => (rename e.1, e.2)) ++ added) ∧
    (∀ e ∈ entries, PolicySource.extension? (rename e.1) = PolicySource.extension? e.1) ∧
    ∀ e ∈ added, PolicySource.extension? e.1 ≠ some "kdl"

theorem PolicyFolder.Relisted.holds {f g : PolicyFolder} {nodes : List Node} (relisted : f.Relisted g) (holds : f.Holds nodes) :
    g.Holds nodes := by
  obtain ⟨entries, others, added, rename, content, content', _, distinct, moved, kept, foreign⟩ := relisted
  obtain ⟨_, parts, content'', _, each, together⟩ := holds
  cases content.symm.trans content''
  have documents : (entries.map (fun e => (rename e.1, e.2)) ++ added).filter isDocument =
      (entries.filter isDocument).map fun e => (rename e.1, e.2) := by
    have none_added : added.filter isDocument = [] := by
      apply List.filter_eq_nil_iff.mpr
      intro e member
      simpa [isDocument] using foreign e member
    rw [List.filter_append, none_added, List.append_nil, List.filter_map]
    congr 1
    apply List.filter_congr
    intro e member
    simp [isDocument, kept e member]
  have each' : List.Forall₂ (fun e part => e.2.Holds part) ((entries.filter isDocument).map fun e => (rename e.1, e.2)) parts :=
    List.forall₂_map_left_iff.mpr each
  obtain ⟨parts', each'', moved'⟩ := List.perm_comp_forall₂ (documents ▸ moved.filter isDocument) each'
  exact ⟨others, parts', content', distinct, each'', together.trans moved'.symm.flatten⟩

theorem PolicyFolder.Relisted.loaded_holds {f g : PolicyFolder} {d : Declarations} (relisted : f.Relisted g)
    (loaded : PolicySource.load (.folder f) = .ok d) : ∃ nodes, f.Holds nodes := by
  obtain ⟨entries, _, _, _, content, _, distinct, _⟩ := relisted
  exact PolicySource.holds_of_load content distinct loaded

end

open Kdl (Node)

inductive Listing.Rearranges {α : Type} (alike : α → α → Prop) : Listing α → Listing α → Prop where
  | unrestricted : Rearranges alike .unrestricted .unrestricted
  | only {items others : List α} (paired : Paired alike items others) : Rearranges alike (.only items) (.only others)

-- The grants of a loose role may stand in another order, what a role implies always may.
structure RoleDeclaration.Rearranges (loose : String → Prop) (a b : RoleDeclaration) : Prop where
  name : a.name = b.name
  permissions : Option.Rel List.Perm a.permissions b.permissions
  ordered : ¬ loose a.name → a.permissions = b.permissions
  implies : Option.Rel List.Perm a.implies b.implies

structure ResourceDeclaration.Rearranges (loose : String → Prop) (r s : ResourceDeclaration) : Prop where
  resourceType : r.resourceType = s.resourceType
  table : r.table = s.table
  idColumn : r.idColumn = s.idColumn
  actions : Listing.Rearranges Eq r.actions s.actions
  roles : Listing.Rearranges (RoleDeclaration.Rearranges loose) r.roles s.roles

structure Declarations.Rearranges (loose : String → Prop) (d e : Declarations) : Prop where
  resources : Paired (ResourceDeclaration.Rearranges loose) d.resources e.resources
  links : d.links.Perm e.links

-- Under every version the same snapshot comes of both, or of neither.
def Declarations.CompileAlike (d e : Declarations) : Prop :=
  ∀ version s, Snapshot.compile d version = .ok s ↔ Snapshot.compile e version = .ok s

variable {loose : String → Prop} {d e : Declarations} {f g : PolicyFolder} {l m : List Node}

theorem Listing.Rearranges.paired {α : Type} {alike : α → α → Prop} {l m : Listing α} (rearranges : l.Rearranges alike m) :
    l.isClosed = m.isClosed ∧ Paired alike l.items m.items := by
  cases rearranges with
  | unrestricted => exact ⟨rfl, .of_forall₂ .nil⟩
  | only paired => exact ⟨rfl, paired⟩

theorem RoleDeclaration.Rearranges.restates {a b : RoleDeclaration} (rearranges : a.Rearranges loose b) (own : String) :
    a.Restates loose own b := by
  have listed : ∀ {x y : Option (List String)}, Option.Rel List.Perm x y → (x.getD []).Perm (y.getD []) := by
    intro x y pair
    cases pair with
    | some perm => exact perm
    | none => exact .refl _
  refine ⟨rearranges.name, (listed rearranges.permissions).map _, ?_, listed rearranges.implies⟩
  intro strict
  rw [RoleDeclaration.read, RoleDeclaration.read, rearranges.ordered strict]

theorem Declarations.Rearranges.restates (rearranges : d.Rearranges loose e) : d.Restates loose e := by
  refine ⟨rearranges.resources.mono ?_, rearranges.links⟩
  intro r s same
  obtain ⟨closed, actions⟩ := same.actions.paired
  refine ⟨same.resourceType, same.table, same.idColumn, closed, ?_, ?_⟩
  · simpa using actions.map_perm fun _ _ is => is
  · exact same.roles.paired.2.mono fun _ _ alike => alike.restates _

theorem Declarations.rearranges_of_perm (resources : d.resources.Perm e.resources) (links : d.links.Perm e.links) :
    d.Rearranges loose e := by
  have perm : ∀ l : Option (List String), Option.Rel List.Perm l l := by
    intro l
    cases l with
    | some items => exact .some (.refl _)
    | none => exact .none
  have self : ∀ {α : Type} {alike : α → α → Prop} (l : Listing α), (∀ a ∈ l.items, alike a a) → l.Rearranges alike l := by
    intro α alike l each
    cases l with
    | unrestricted => exact .unrestricted
    | only items => exact .only (.of_perm (.refl _) each)
  refine ⟨.of_perm resources ?_, links⟩
  intro r _
  refine ⟨rfl, rfl, rfl, self _ fun _ _ => rfl, self _ ?_⟩
  intro role _
  exact ⟨rfl, perm _, fun _ => rfl, perm _⟩

theorem compilation_ignores_order :
    (∀ d e : Declarations, d.Rearranges (fun _ => False) e → d.CompileAlike e) ∧
    (∀ loose d e, d.Rearranges loose e → ∀ version,
      ((∃ s, Snapshot.compile d version = .ok s) ↔ ∃ t, Snapshot.compile e version = .ok t) ∧
        ∀ s t, Snapshot.compile d version = .ok s → Snapshot.compile e version = .ok t → s.AgreesUpTo loose t) ∧
    (∀ f g l m d, f.Holds l → g.Holds m → l.Perm m → PolicySource.load (.folder f) = .ok d →
      ∃ e, PolicySource.load (.folder g) = .ok e ∧ d.CompileAlike e) ∧
    ∀ f g d, f.Relisted g → PolicySource.load (.folder f) = .ok d →
      ∃ e, PolicySource.load (.folder g) = .ok e ∧ d.CompileAlike e := by
  have strictly : ∀ d e : Declarations, d.Rearranges (fun _ => False) e → d.CompileAlike e :=
    fun d e rearranges version s => Snapshot.compiles_alike rearranges.restates
  have resplit : ∀ f g l m d, f.Holds l → g.Holds m → l.Perm m → PolicySource.load (.folder f) = .ok d →
      ∃ e, PolicySource.load (.folder g) = .ok e ∧ d.CompileAlike e := by
    intro f g l m d left right perm loaded
    obtain ⟨e, loaded', resources, links⟩ := PolicySource.load_perm left right perm loaded
    exact ⟨e, loaded', strictly d e (Declarations.rearranges_of_perm resources links)⟩
  refine ⟨strictly, ?_, resplit, ?_⟩
  · intro loose d e rearranges version
    have restates := rearranges.restates
    have onward : ∀ s, Snapshot.compile d version = .ok s → ∃ t, Snapshot.compile e version = .ok t ∧ s.AgreesUpTo loose t :=
      fun s => Snapshot.compile_restated restates
    constructor
    · constructor
      · intro given
        obtain ⟨s, compiled⟩ := given
        obtain ⟨t, compiled', _⟩ := onward s compiled
        exact ⟨t, compiled'⟩
      · intro given
        obtain ⟨t, compiled⟩ := given
        obtain ⟨s, compiled', _⟩ := Snapshot.compile_restated restates.symm compiled
        exact ⟨s, compiled'⟩
    · intro s t compiled compiled'
      obtain ⟨_, again, agree⟩ := onward s compiled
      cases again.symm.trans compiled'
      exact agree
  · intro f g d relisted loaded
    obtain ⟨nodes, holds⟩ := relisted.loaded_holds loaded
    exact resplit f g nodes nodes d holds (relisted.holds holds) (.refl _) loaded

-- A policy, and the same with everything in another order but the grants of the writer, which are as given.
def cabinet : Declarations :=
  { resources :=
      [⟨"Note", "notes", "id", .only ["read", "write"], .only
          [⟨"reader", some ["read"], none⟩, ⟨"writer", some ["write", "read"], some ["reader", "guest"]⟩]⟩,
        ⟨"Folder", "folders", "id", .unrestricted, .only [⟨"guest", some ["enter"], none⟩]⟩]
    links := [⟨"Note", "Folder", "folder_id", none⟩] }

def turnedCabinet (grants : List String) : Declarations :=
  { resources :=
      [⟨"Folder", "folders", "id", .unrestricted, .only [⟨"guest", some ["enter"], none⟩]⟩,
        ⟨"Note", "notes", "id", .only ["write", "read"], .only
          [⟨"writer", some grants, some ["guest", "reader"]⟩, ⟨"reader", some ["read"], none⟩]⟩]
    links := [⟨"Note", "Folder", "folder_id", none⟩] }

theorem cabinet_rearranges {loose : String → Prop} {grants : List String} (moved : ["write", "read"].Perm grants)
    (ordered : ¬ loose "writer" → ["write", "read"] = grants) : cabinet.Rearranges loose (turnedCabinet grants) := by
  have writer : RoleDeclaration.Rearranges loose ⟨"writer", some ["write", "read"], some ["reader", "guest"]⟩
      ⟨"writer", some grants, some ["guest", "reader"]⟩ :=
    ⟨rfl, .some moved, fun strict => congrArg some (ordered strict), .some (.swap _ _ _)⟩
  have reader : RoleDeclaration.Rearranges loose ⟨"reader", some ["read"], none⟩ ⟨"reader", some ["read"], none⟩ :=
    ⟨rfl, .some (.refl _), fun _ => rfl, .none⟩
  have guest : RoleDeclaration.Rearranges loose ⟨"guest", some ["enter"], none⟩ ⟨"guest", some ["enter"], none⟩ :=
    ⟨rfl, .some (.refl _), fun _ => rfl, .none⟩
  have roles := (Paired.of_forall₂ (.cons reader (.cons writer .nil))).perm (.swap _ _ _)
  have actions : Paired Eq ["read", "write"] ["write", "read"] := .of_perm (.swap _ _ _) fun _ _ => rfl
  have each : List.Forall₂ (ResourceDeclaration.Rearranges loose) cabinet.resources (turnedCabinet grants).resources.reverse :=
    .cons ⟨rfl, rfl, rfl, .only actions, .only roles⟩
      (.cons ⟨rfl, rfl, rfl, .unrestricted, .only (.of_forall₂ (.cons guest .nil))⟩ .nil)
  exact ⟨(Paired.of_forall₂ each).perm (List.reverse_perm _), .refl _⟩

-- Two documents in a folder, and the folder after one of them got another name and some other file was put there.
def typesText : String := "resource \"Note\" table=\"notes\"\nresource \"Folder\" table=\"folders\""

def joinsText : String := "relationship child=\"Note\" parent=\"Folder\" field=\"folder_id\""

def drawer : PolicyFolder := ⟨"policies", some (.folder [("a.kdl", .file typesText.toUTF8), ("b.kdl", .file joinsText.toUTF8)])⟩

def relistedDrawer : PolicyFolder :=
  ⟨"policies", some (.folder
    [("b.kdl", .file joinsText.toUTF8), ("a.bak", .file joinsText.toUTF8), ("c.kdl", .file typesText.toUTF8)])⟩

theorem drawer_relisted : drawer.Relisted relistedDrawer := by
  refine ⟨_, _, [("a.bak", .file joinsText.toUTF8)], fun name => if name = "a.kdl" then "c.kdl" else name, rfl, rfl,
    ?_, ?_, ?_, ?_, ?_⟩
  · decide
  · decide
  · show List.Perm _
      [("c.kdl", FileTree.file typesText.toUTF8), ("b.kdl", .file joinsText.toUTF8), ("a.bak", .file joinsText.toUTF8)]
    exact List.perm_append_singleton _ [_, _]
  · decide +kernel
  · decide +kernel

theorem cabinet_turned : ∃ s t, Snapshot.compile cabinet 3 = .ok s ∧ Snapshot.compile (turnedCabinet ["write", "read"]) 3 = .ok s ∧
    Snapshot.compile (turnedCabinet ["read", "write"]) 3 = .ok t ∧ s.AgreesUpTo (· = "writer") t ∧
    ∃ d e, PolicySource.load (.folder drawer) = .ok d ∧ PolicySource.load (.folder relistedDrawer) = .ok e ∧ d.CompileAlike e := by
  obtain ⟨strictly, loosely, _, relisted⟩ := compilation_ignores_order
  have compiles : (Snapshot.compile cabinet 3).toOption.isSome = true := by decide +kernel
  obtain ⟨s, found⟩ := Option.isSome_iff_exists.mp compiles
  have compiled := toOption_eq_some_iff.mp found
  have moved : cabinet.Rearranges (· = "writer") (turnedCabinet ["read", "write"]) :=
    cabinet_rearranges (.swap _ _ _) fun strict => absurd rfl strict
  obtain ⟨accepted, agree⟩ := loosely _ _ _ moved 3
  obtain ⟨t, compiled'⟩ := accepted.mp ⟨s, compiled⟩
  have same := (strictly _ _ (cabinet_rearranges (.refl _) fun _ => rfl) 3 s).mp compiled
  have loads : (PolicySource.load (.folder drawer)).toOption.isSome = true := by decide +kernel
  obtain ⟨d, there⟩ := Option.isSome_iff_exists.mp loads
  have loaded := toOption_eq_some_iff.mp there
  obtain ⟨e, loaded', alike⟩ := relisted drawer relistedDrawer d drawer_relisted loaded
  exact ⟨s, t, compiled, same, compiled', agree s t compiled compiled', d, e, loaded, loaded', alike⟩

end ScopedAccess
