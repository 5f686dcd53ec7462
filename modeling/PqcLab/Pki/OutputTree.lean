import PqcLab.Library.FileTree
import PqcLab.Pki.ServedChain

/-! Where `gen_chain.sh` writes: the paths that it builds from a profile id, in the tree of files. -/

namespace PqcLab.Pki

open FileTree Script

/-- `REPO_ROOT`, as `pwd` prints it. -/
structure Checkout where
  root : Path
  named : ∀ name ∈ root, dots name = false

namespace Checkout

variable (lab : Checkout)

def pkiFactory : Path := lab.root ++ ["pki_factory".toList]

def output : Path := lab.pkiFactory ++ ["output".toList]

/-- `OUT_DIR="$REPO_ROOT/pki_factory/output/$PROFILE_ID"` -/
def outDir (profileId : Text) : List Name := lab.output ++ profileId.splitOn '/'

/-- The script stands below this directory, which therefore exists. -/
def Located (tree : Tree) : Prop := ∀ path, path <+: lab.pkiFactory → tree path = some .dir

end Checkout

/-- The files that the script writes in `OUT_DIR`, in its order. -/
def Profile.files (p : Profile) : List (List Name × Name) :=
  [(["tmp".toList], "leaf_ext.cnf".toList)] ++
  (if p.deep then [(["tmp".toList], "int_ext.cnf".toList)] else []) ++
  [(["certs".toList], "root.key".toList), (["certs".toList], "root.crt".toList)] ++
  (if p.deep then
    [(["certs".toList], "intermediate.key".toList), (["csr".toList], "intermediate.csr".toList),
      (["certs".toList], "root.srl".toList), (["certs".toList], "intermediate.crt".toList)]
  else []) ++
  [(["certs".toList], "server.key".toList), (["csr".toList], "server.csr".toList),
    (["certs".toList], if p.deep then "intermediate.srl".toList else "root.srl".toList),
    (["certs".toList], "server.crt".toList), (["certs".toList], "served_chain.pem".toList),
    ([], "verify.txt".toList), ([], "chain.json".toList), ([], "meta.json".toList)]

/-- What the script does to the tree, with any content for its files. Its one `mkdir -p` is three steps, for it
can stop after each directory. -/
def Profile.treeSteps (lab : Checkout) (follow : Links) (p : Profile) (contents : List Name × Name → Text) :
    List (Step Tree) :=
  [removeAllStep follow (lab.outDir p.profileId)] ++
  (["certs".toList, "csr".toList, "tmp".toList].map fun sub =>
    makeDirsStep follow (lab.outDir p.profileId ++ [sub])) ++
  p.files.map fun file => writeStep follow (lab.outDir p.profileId ++ file.1) file.2 (contents file)

namespace Checkout

variable (lab : Checkout) (follow : Links)

def Spares (before : Tree) (p q : Profile) : Prop :=
  ∀ contents after, Stops (p.treeSteps lab follow contents) before after →
    ∀ path, ¬ lab.output <+: path ∨ resolve (lab.outDir q.profileId) <+: path → after path = before path

/-- The path of `p` stays within `pki_factory/output`, does not come through the directory of `q`, and
does not end above it. -/
structure Apart (p q : Profile) : Prop where
  within : ∀ path ∈ way (lab.outDir p.profileId), lab.output <+: path ∨ path <+: lab.output
  inside : lab.output <+: resolve (lab.outDir p.profileId)
  clear : ∀ path ∈ way (lab.outDir p.profileId), ¬ resolve (lab.outDir q.profileId) <+: path
  below : ¬ resolve (lab.outDir p.profileId) <+: resolve (lab.outDir q.profileId)

def Plain (tree : Tree) (p : Profile) : Prop :=
  ∀ path, path ∈ way (lab.outDir p.profileId) ∨ resolve (lab.outDir p.profileId) <+: path → Unlinked tree path

end Checkout

variable {lab : Checkout} {follow : Links} {before after origin : Tree} {p q : Profile} {path : Path}
  {contents : List Name × Name → Text}

theorem files_named (p : Profile) : ∀ file ∈ p.files, ∀ name ∈ file.1, dots name = false := by
  unfold Profile.files
  split_ifs
  · decide
  · decide

theorem treeSteps_keep {step : Step Tree} (member : step ∈ p.treeSteps lab follow contents) :
    step.Keeps (Confined origin (lab.outDir p.profileId)) := by
  unfold Profile.treeSteps at member
  rw [List.append_assoc, List.mem_append, List.mem_append, List.mem_singleton] at member
  rcases member with rfl | made | written
  · exact removeAllStep_keeps
  · obtain ⟨sub, listed, rfl⟩ := List.mem_map.mp made
    have named : ∀ sub ∈ ["certs".toList, "csr".toList, "tmp".toList], dots sub = false := by decide
    exact makeDirsStep_keeps fun name member => List.mem_singleton.mp member ▸ named sub listed
  · obtain ⟨file, listed, rfl⟩ := List.mem_map.mp written
    exact writeStep_keeps (files_named p file listed)

theorem treeSteps_confined (plain : lab.Plain before p)
    (stopped : Stops (p.treeSteps lab follow contents) before after) :
    Confined before (lab.outDir p.profileId) after := by
  apply stopped.keeps fun step member => treeSteps_keep member
  exact ⟨fun path => .inl rfl, plain⟩

theorem refused_unchanged (refused : refused follow before (lab.outDir p.profileId) = true)
    (stopped : Stops (p.treeSteps lab follow contents) before after) : after = before := by
  have left : (removeAllStep follow (lab.outDir p.profileId)).command before = .error before := if_pos refused
  cases stopped with
  | here => rfl
  | spoiled spoilt =>
    have taken := spoilt.1
    rw [refused] at taken
    cases taken
  | failed ended =>
    rw [left] at ended
    cases ended
    rfl
  | next ended =>
    rw [left] at ended
    cases ended

theorem confined_spares (located : lab.Located before) (apart : lab.Apart p q)
    (confined : Confined before (lab.outDir p.profileId) after)
    (kept : ¬ lab.output <+: path ∨ resolve (lab.outDir q.profileId) <+: path) : after path = before path := by
  rcases confined.touched path with same | below | ⟨passed, missing, -⟩
  · exact same
  · exfalso
    rcases kept with outside | other
    · exact outside (apart.inside.trans below)
    · rcases List.prefix_or_prefix_of_prefix below other with above | through
      · exact apart.below above
      · exact apart.clear _ (resolve_mem_way List.prefix_rfl) through
  · exfalso
    rcases kept with outside | other
    · rcases apart.within path passed with inside | above
      · exact outside inside
      · -- a directory above `output` is there already
        rcases List.prefix_concat_iff.mp above with same | early
        · exact outside (same ▸ List.prefix_rfl)
        · rw [located path early] at missing
          cases missing
    · exact apart.clear path passed other

/-- Two profiles whose directories lie apart do not disturb each other, if no symbolic link leads astray.
Where `rm` refuses the directory, the script changes nothing. -/
theorem genChain_spares (located : lab.Located before)
    (apart : refused follow before (lab.outDir p.profileId) = false → lab.Apart p q)
    (plain : refused follow before (lab.outDir p.profileId) = false → lab.Plain before p) :
    lab.Spares follow before p q := by
  intro contents after stopped path kept
  cases refusal : refused follow before (lab.outDir p.profileId) with
  | true => rw [refused_unchanged refusal stopped]
  | false => exact confined_spares located (apart refusal) (treeSteps_confined (plain refusal) stopped) kept

def homeLab : Checkout where
  root := ["lab".toList]
  named := by decide

def treeOf (entries : List (Path × Node)) : Tree := fun path =>
  (homeLab.output.inits.map (·, Node.dir) ++ entries).lookup path

theorem treeOf_located (entries : List (Path × Node)) : homeLab.Located (treeOf entries) := by
  intro path above
  have listed : ∀ path ∈ homeLab.pkiFactory.inits,
      (homeLab.output.inits.map (·, Node.dir)).lookup path = some .dir := by decide
  unfold treeOf
  rw [List.lookup_append, listed path ((List.mem_inits _ _).mpr above)]
  rfl

def isLink : Node → Bool
  | .link _ => true
  | _ => false

theorem treeOf_unlinked {entries : List (Path × Node)}
    (plain : ∀ entry ∈ homeLab.output.inits.map (·, Node.dir) ++ entries, isLink entry.2 = false) :
    Unlinked (treeOf entries) path := by
  intro target linked
  obtain ⟨_, _, same⟩ := List.lookup_eq_some_iff.mp linked
  have listed := plain (path, .link target) (by simp [same])
  cases listed

def noLinks : Links := fun _ _ => none

def identified (profileId : String) : Profile := { mlRootMlLeaf with profileId := profileId.toList }

def inOutput (names : List String) : Path := homeLab.output ++ names.map String.toList

theorem genChain_spares_plain_ids :
    homeLab.Spares noLinks (treeOf [(inOutput ["ml_root__ml_int__ml_leaf"], .dir),
        (inOutput ["ml_root__ml_int__ml_leaf", "chain.json"], .file "{}".toList)])
      mlRootMlLeaf mlRootMlIntMlLeaf := by
  apply genChain_spares (treeOf_located _)
  · intro _
    exact ⟨by decide +kernel, by decide +kernel, by decide +kernel, by decide +kernel⟩
  · intro _ path _
    apply treeOf_unlinked
    decide +kernel

def Disturbs (follow : Links) (before : Tree) (p q : Profile) : Prop :=
  p.profileId ≠ q.profileId ∧ homeLab.Located before ∧ ¬ homeLab.Spares follow before p q

theorem disturbs_of_take {entries : List (Path × Node)} (differ : p.profileId ≠ q.profileId) (count : ℕ)
    (path : Path) (kept : ¬ homeLab.output <+: path ∨ resolve (homeLab.outDir q.profileId) <+: path)
    (changed : outcome (run (((p.treeSteps homeLab follow fun _ => []).take count).map Step.command)
      (treeOf entries)) path ≠ treeOf entries path) : Disturbs follow (treeOf entries) p q := by
  refine ⟨differ, treeOf_located entries, fun spares => changed ?_⟩
  exact spares _ _ (Stops.of_take _ _ count) path kept

/-- An id that encloses another, one that leads out of `output`, one whose path comes through the directory
of another, and one that follows a symbolic link. -/
theorem ids_disturb_each_other :
    Disturbs noLinks (treeOf [(inOutput ["ml_root"], .dir), (inOutput ["ml_root", "old"], .dir),
        (inOutput ["ml_root", "old", "chain.json"], .file "{}".toList)])
      (identified "ml_root") (identified "ml_root/old") ∧
    Disturbs noLinks (treeOf [(homeLab.pkiFactory ++ ["scripts".toList], .dir),
        (homeLab.pkiFactory ++ ["scripts".toList, "gen_chain.sh".toList], .file [])])
      (identified "../scripts") (identified "ml_root") ∧
    Disturbs noLinks (treeOf []) (identified "ml_root/../slh_root") (identified "ml_root") ∧
    Disturbs (fun _ path => if path = inOutput ["chains"] then some ["lab".toList, "profiles".toList] else none)
      (treeOf [(inOutput ["chains"], .link "../../profiles".toList), (["lab".toList, "profiles".toList], .dir),
        (["lab".toList, "profiles".toList, "old".toList], .file [])])
      (identified "chains/old") (identified "ml_root") := by
  refine ⟨?_, ?_, ?_, ?_⟩
  · apply disturbs_of_take (by decide) 1 (inOutput ["ml_root", "old", "chain.json"])
    · exact .inr (by decide +kernel)
    · decide +kernel
  · apply disturbs_of_take (by decide) 1 (homeLab.pkiFactory ++ ["scripts".toList, "gen_chain.sh".toList])
    · exact .inl (by decide +kernel)
    · decide +kernel
  · apply disturbs_of_take (by decide) 2 (inOutput ["ml_root"])
    · exact .inr (by decide +kernel)
    · decide +kernel
  · apply disturbs_of_take (by decide) 1 ["lab".toList, "profiles".toList, "old".toList]
    · exact .inl (by decide +kernel)
    · decide +kernel

end PqcLab.Pki
