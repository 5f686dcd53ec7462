import Mathlib.Data.List.DropRight
import Mathlib.Data.List.Infix
import Mathlib.Logic.Function.Basic
import PqcLab.Library.Script

/-! Trees of directories, files and symbolic links: how a path is resolved, and what `rm -rf`, `mkdir -p`
and a redirection do to the tree. -/

namespace FileTree

open Script

abbrev Name := List Char

abbrev Path := List Name

inductive Node
  | dir
  | file (content : List Char)
  | link (target : List Char)
  deriving DecidableEq

abbrev Tree := Path → Option Node

abbrev Links := Tree → Path → Option Path

/-- The components that name no entry of their directory. -/
def dots (name : Name) : Bool := name == [] || name == ['.'] || name == ['.', '.']

def push (dir : Path) (name : Name) : Path :=
  if name = [] ∨ name = ['.'] then dir
  else if name = ['.', '.'] then dir.dropLast
  else dir ++ [name]

variable (follow : Links) (tree : Tree)

def enter (dir : Path) (name : Name) : Option Path :=
  if dots name then some (push dir name)
  else match tree (dir ++ [name]) with
    | some .dir => some (dir ++ [name])
    | some (.link _) => (follow tree (dir ++ [name])).filter fun target => tree target = some .dir
    | _ => none

def walk (names : List Name) : Option Path := names.foldlM (enter follow tree) []

def fileAt (names : List Name) (name : Name) : Option Path := do
  let dir ← walk follow tree names
  match tree (dir ++ [name]) with
  | some .dir => none
  | some (.link _) => follow tree (dir ++ [name])
  | _ => some (dir ++ [name])

/-- The shell opens the file for a redirection, or a program for its output. -/
def writeFile (names : List Name) (name : Name) (content : List Char) : Command Tree := fun tree =>
  match fileAt follow tree names name with
  | some path => .ok (Function.update tree path (some (.file content)))
  | none => .error tree

/-- A write that fails may have written any part of the content. -/
def writeStep (names : List Name) (name : Name) (content : List Char) : Step Tree where
  command := writeFile follow names name content
  spoils before after := ∃ path part, fileAt follow before names name = some path ∧
    after = Function.update before path (some (.file part))

def makeDir (dir : Path) (name : Name) : Tree :=
  if tree (push dir name) = none then Function.update tree (push dir name) (some .dir) else tree

/-- `mkdir -p` -/
def makeDirs : Path → List Name → Command Tree
  | _, [] => fun tree => .ok tree
  | dir, name :: names => fun tree =>
    match enter follow (makeDir tree dir name) dir name with
    | some next => makeDirs next names (makeDir tree dir name)
    | none => .error (makeDir tree dir name)

def makeDirsStep (names : List Name) : Step Tree where
  command := makeDirs follow [] names
  spoils before after := ∃ count, after = outcome (makeDirs follow [] (names.take count) before)

/-- `rm` does not remove an existing directory under the name `.` or `..`. -/
def refused (names : List Name) : Bool :=
  (names.rdropWhile fun name => name = []).getLast?.any dots && (walk follow tree names).isSome

/-- What `rm -rf` removes: a symbolic link itself, unless a slash follows it. -/
def operand (names : List Name) : Option Path := do
  let name ← names.getLast?
  if dots name then walk follow tree names
  else (walk follow tree names.dropLast).map fun dir => dir ++ [name]

/-- `rm -rf`, which succeeds where there is nothing to remove. -/
def removeAll (names : List Name) : Command Tree := fun tree =>
  if refused follow tree names then .error tree
  else match operand follow tree names with
    | some top => .ok fun path => if top.isPrefixOf path then none else tree path
    | none => .ok tree

def removeAllStep (names : List Name) : Step Tree where
  command := removeAll follow names
  spoils before after := refused follow before names = false ∧
    ∃ top, operand follow before names = some top ∧
      ∀ path, after path = before path ∨ (top <+: path ∧ after path = none)

/-- The directory that a path names, by its text alone. -/
def resolve (names : List Name) : Path := names.foldl push []

/-- The directories that a path passes through. -/
def way (names : List Name) : List Path := names.inits.map resolve

def Unlinked (path : Path) : Prop := ∀ target, tree path ≠ some (.link target)

variable {follow tree} {dir next top path : Path} {names front : List Name} {name : Name}

theorem mem_way : path ∈ way names ↔ ∃ front, front <+: names ∧ resolve front = path := by
  simp [way]

theorem resolve_mem_way (shorter : front <+: names) : resolve front ∈ way names :=
  mem_way.mpr ⟨front, shorter, rfl⟩

theorem push_name (named : dots name = false) : push dir name = dir ++ [name] := by
  simp only [dots, Bool.or_eq_false_iff, beq_eq_false_iff_ne] at named
  simp [push, named]

theorem resolve_append_names {rest : List Name} (named : ∀ name ∈ rest, dots name = false) :
    resolve (names ++ rest) = resolve names ++ rest := by
  unfold resolve
  rw [List.foldl_append]
  generalize names.foldl push [] = dir
  induction rest generalizing dir with
  | nil => simp
  | cons name rest ih =>
    rw [List.foldl_cons, push_name (named name List.mem_cons_self),
      ih (fun name member => named name (List.mem_cons_of_mem _ member))]
    simp

theorem enter_unlinked (plain : Unlinked tree (push dir name)) (entered : enter follow tree dir name = some next) :
    next = push dir name := by
  unfold enter at entered
  cases dotted : dots name with
  | true =>
    rw [if_pos dotted] at entered
    exact (Option.some.inj entered).symm
  | false =>
    rw [push_name dotted] at plain ⊢
    rw [if_neg (by simp [dotted])] at entered
    split at entered
    · exact (Option.some.inj entered).symm
    · rename_i target linked
      exact absurd linked (plain target)
    · cases entered

theorem walk_unlinked (plain : ∀ path ∈ way names, Unlinked tree path)
    (walked : walk follow tree names = some next) : next = resolve names := by
  induction names using List.reverseRecOn generalizing next with
  | nil => exact (Option.some.inj walked).symm
  | append_singleton names name ih =>
    unfold walk at walked ih
    rw [List.foldlM_append, Option.bind_eq_bind, Option.bind_eq_some_iff] at walked
    obtain ⟨dir, early, entered⟩ := walked
    have earlier : dir = resolve names := by
      apply ih _ early
      intro path member
      obtain ⟨front, shorter, rfl⟩ := mem_way.mp member
      exact plain _ (resolve_mem_way (shorter.trans (List.prefix_append _ _)))
    subst earlier
    have here : resolve (names ++ [name]) = push (resolve names) name := by simp [resolve]
    have entered : enter follow tree (resolve names) name = some next := by simpa using entered
    rw [here]
    apply enter_unlinked _ entered
    rw [← here]
    exact plain _ (resolve_mem_way List.prefix_rfl)

theorem way_append {rest : List Name} (named : ∀ name ∈ rest, dots name = false)
    (member : path ∈ way (names ++ rest)) : path ∈ way names ∨ resolve names <+: path := by
  obtain ⟨front, shorter, rfl⟩ := mem_way.mp member
  rcases List.prefix_or_prefix_of_prefix shorter (List.prefix_append names rest) with early | late
  · exact .inl (resolve_mem_way early)
  · right
    obtain ⟨below, rfl⟩ := late
    have within : below <+: rest := (List.prefix_append_right_inj names).mp shorter
    rw [resolve_append_names fun name member => named name (within.subset member)]
    exact List.prefix_append _ _

/-- A tree that differs from another at and below one directory, and by new directories on the way to it. -/
structure Confined (origin : Tree) (names : List Name) (tree : Tree) : Prop where
  touched : ∀ path, tree path = origin path ∨ resolve names <+: path ∨
    (path ∈ way names ∧ origin path = none ∧ tree path = some .dir)
  unlinked : ∀ path, path ∈ way names ∨ resolve names <+: path → Unlinked tree path

variable {origin after : Tree} {rest : List Name} {content : List Char}

theorem Confined.remove (confined : Confined origin names tree)
    (left : ∀ path, after path = tree path ∨ (resolve names <+: path ∧ after path = none)) :
    Confined origin names after := by
  constructor
  · intro path
    rcases left path with same | ⟨below, -⟩
    · rw [same]
      exact confined.touched path
    · exact .inr (.inl below)
  · intro path near target linked
    rcases left path with same | ⟨-, gone⟩
    · exact confined.unlinked path near target (same ▸ linked)
    · rw [gone] at linked
      cases linked

theorem unlinked_update {node : Node} {other : Path} (kind : ∀ target, node ≠ .link target)
    (plain : Unlinked tree other) : Unlinked (Function.update tree path (some node)) other := by
  intro target linked
  by_cases same : other = path
  · subst same
    rw [Function.update_self] at linked
    exact kind target (Option.some.inj linked)
  · rw [Function.update_of_ne same] at linked
    exact plain target linked

theorem Confined.write (confined : Confined origin names tree) (below : resolve names <+: path) :
    Confined origin names (Function.update tree path (some (.file content))) := by
  constructor
  · intro other
    by_cases same : other = path
    · exact .inr (.inl (same ▸ below))
    · rw [Function.update_of_ne same]
      exact confined.touched other
  · intro other near
    exact unlinked_update (by simp) (confined.unlinked other near)

theorem Confined.makeDir (confined : Confined origin names tree)
    (near : push dir name ∈ way names ∨ resolve names <+: push dir name) :
    Confined origin names (makeDir tree dir name) := by
  unfold FileTree.makeDir
  split_ifs with missing
  · constructor
    · intro other
      by_cases same : other = push dir name
      · subst same
        rw [Function.update_self]
        rcases near with passed | below
        · rcases confined.touched (push dir name) with kept | below | ⟨-, absent, -⟩
          · exact .inr (.inr ⟨passed, kept ▸ missing, rfl⟩)
          · exact .inr (.inl below)
          · exact .inr (.inr ⟨passed, absent, rfl⟩)
        · exact .inr (.inl below)
      · rw [Function.update_of_ne same]
        exact confined.touched other
    · intro other near
      exact unlinked_update (by simp) (confined.unlinked other near)
  · exact confined

theorem Confined.makeDirs (confined : Confined origin names tree)
    (near : ∀ front, front <+: rest → front.foldl push dir ∈ way names ∨ resolve names <+: front.foldl push dir) :
    Confined origin names (outcome (makeDirs follow dir rest tree)) := by
  induction rest generalizing dir tree with
  | nil => exact confined
  | cons name rest ih =>
    have here : push dir name ∈ way names ∨ resolve names <+: push dir name :=
      near [name] (List.prefix_append [name] rest)
    have made := confined.makeDir here
    unfold FileTree.makeDirs
    cases entered : enter follow (FileTree.makeDir tree dir name) dir name with
    | none => exact made
    | some next =>
      obtain rfl : next = push dir name := enter_unlinked (made.unlinked _ here) entered
      apply ih made
      intro front shorter
      exact near (name :: front) (List.cons_prefix_cons.mpr ⟨rfl, shorter⟩)

theorem operand_unlinked (confined : Confined origin names tree)
    (found : operand follow tree names = some top) : top = resolve names := by
  unfold operand at found
  rw [Option.bind_eq_bind, Option.bind_eq_some_iff] at found
  obtain ⟨name, last, found⟩ := found
  have plain : ∀ path ∈ way names, Unlinked tree path := fun path passed => confined.unlinked path (.inl passed)
  obtain ⟨front, rfl⟩ := List.getLast?_eq_some_iff.mp last
  split_ifs at found with dotted
  · exact walk_unlinked plain found
  · obtain ⟨dir, walked, rfl⟩ := Option.map_eq_some_iff.mp found
    rw [List.dropLast_concat] at walked
    have early : dir = resolve front := by
      apply walk_unlinked _ walked
      intro path passed
      obtain ⟨shorter, within, rfl⟩ := mem_way.mp passed
      exact plain _ (resolve_mem_way (within.trans (List.prefix_append _ _)))
    rw [early, ← push_name (by simpa using dotted)]
    simp [resolve]

theorem removeAllStep_keeps : (removeAllStep follow names).Keeps (Confined origin names) := by
  constructor
  · intro tree confined
    change Confined origin names (outcome (removeAll follow names tree))
    unfold removeAll
    split_ifs
    · exact confined
    · cases found : operand follow tree names with
      | none => exact confined
      | some top =>
        obtain rfl : top = resolve names := operand_unlinked confined found
        apply confined.remove
        intro path
        change (if _ then _ else _) = _ ∨ _ ∧ (if _ then _ else _) = _
        split_ifs with below
        · exact .inr ⟨List.isPrefixOf_iff_prefix.mp below, rfl⟩
        · exact .inl rfl
  · intro tree after confined spoilt
    obtain ⟨-, top, found, left⟩ := spoilt
    obtain rfl : top = resolve names := operand_unlinked confined found
    exact confined.remove left

theorem makeDirsStep_keeps (named : ∀ name ∈ rest, dots name = false) :
    (makeDirsStep follow (names ++ rest)).Keeps (Confined origin names) := by
  have near (front : List Name) (shorter : front <+: names ++ rest) :
      front.foldl push [] ∈ way names ∨ resolve names <+: front.foldl push [] :=
    way_append named (resolve_mem_way shorter)
  constructor
  · intro tree confined
    exact confined.makeDirs near
  · intro tree after confined spoilt
    obtain ⟨count, rfl⟩ := spoilt
    exact confined.makeDirs fun front shorter => near front (shorter.trans (List.take_prefix _ _))

theorem fileAt_below (confined : Confined origin names tree) (named : ∀ name ∈ rest, dots name = false)
    (found : fileAt follow tree (names ++ rest) name = some path) : resolve names <+: path := by
  unfold fileAt at found
  rw [Option.bind_eq_bind, Option.bind_eq_some_iff] at found
  obtain ⟨dir, walked, found⟩ := found
  obtain rfl : dir = resolve (names ++ rest) :=
    walk_unlinked (fun path passed => confined.unlinked path (way_append named passed)) walked
  have below : resolve names <+: resolve (names ++ rest) ++ [name] := by
    rw [resolve_append_names named, List.append_assoc]
    exact List.prefix_append _ _
  split at found
  · cases found
  · rename_i target linked
    exact absurd linked (confined.unlinked _ (.inr below) target)
  · exact Option.some.inj found ▸ below

theorem writeStep_keeps (named : ∀ name ∈ rest, dots name = false) :
    (writeStep follow (names ++ rest) name content).Keeps (Confined origin names) := by
  constructor
  · intro tree confined
    change Confined origin names (outcome (writeFile follow (names ++ rest) name content tree))
    unfold writeFile
    cases found : fileAt follow tree (names ++ rest) name with
    | none => exact confined
    | some path => exact confined.write (fileAt_below confined named found)
  · intro tree after confined spoilt
    obtain ⟨path, part, found, rfl⟩ := spoilt
    exact confined.write (fileAt_below confined named found)

end FileTree
