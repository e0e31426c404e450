import Ambush.Lib.Levels
/-!
# Merkle trees

The RFC 6962 tree of a list of leaves, its root and its inclusion proofs. SHA-256 comes from
outside the repository, so leaf and node hashes are taken as a `Hasher`.
-/
open Lib

namespace Ambush.Merkle

structure Hasher (Hash : Type) where
  /-- SHA-256 of `0x00` and the leaf. -/
  leaf_hash : List UInt8 → Hash
  /-- SHA-256 of `0x01` and the two hashes. -/
  node_hash : Hash → Hash → Hash
  /-- `Hash::zero`. -/
  zero : Hash

inductive Error where
  | EmptyTree
  | InvalidProofIndex (index leaves : Nat)
  | MerkleProofFailed
  deriving DecidableEq

structure MerkleTree (Hash : Type) where
  levels : List (List Hash)

structure MerkleProof (Hash : Type) where
  tree_size : Nat
  leaf_index : Nat
  audit_path : List Hash

section
variable {Hash : Type} (h : Hasher Hash)

def from_hashes (leaf_hashes : List Hash) : Except Error (MerkleTree Hash) :=
  if leaf_hashes.isEmpty then .error .EmptyTree else .ok ⟨leaf_hashes :: climb h.node_hash leaf_hashes⟩

/-- The same loop over the hashes of the leaves. -/
def from_leaves (leaves : List (List UInt8)) : Except Error (MerkleTree Hash) := from_hashes h (leaves.map h.leaf_hash)

def MerkleTree.leaf_count (tree : MerkleTree Hash) : Nat := (tree.levels.head?.map List.length).getD 0

def MerkleTree.root (tree : MerkleTree Hash) : Hash := (tree.levels.getLast?.bind List.head?).getD h.zero

/-- The sibling of each level up to the last, where there is one. -/
def audit (index : Nat) : List (List Hash) → List Hash
  | [] => []
  | level :: rest =>
    if level.length ≤ 1 then []
    else if index % 2 = 0 then level[index + 1]?.toList ++ audit (index / 2) rest
    else level[index - 1]?.toList ++ audit (index / 2) rest

def MerkleTree.inclusion_proof (tree : MerkleTree Hash) (leaf_index : Nat) : Except Error (MerkleProof Hash) :=
  let tree_size := tree.leaf_count
  if leaf_index ≥ tree_size then .error (.InvalidProofIndex leaf_index tree_size)
  else .ok ⟨tree_size, leaf_index, audit leaf_index tree.levels⟩

/-- The loop of `compute_root_from_hash`, with what is left of the path. -/
def walk (hash : Hash) (index size : Nat) (path : List Hash) : Except Error Hash :=
  if 1 < size then
    if index % 2 = 0 then
      if index + 1 < size then
        match path with
        | [] => .error .MerkleProofFailed
        | sibling :: path => walk (h.node_hash hash sibling) (index / 2) ((size + 1) / 2) path
      else walk hash (index / 2) ((size + 1) / 2) path
    else
      match path with
      | [] => .error .MerkleProofFailed
      | sibling :: path => walk (h.node_hash sibling hash) (index / 2) ((size + 1) / 2) path
  else if path.isEmpty then .ok hash else .error .MerkleProofFailed
termination_by size

namespace MerkleProof

def compute_root_from_hash (proof : MerkleProof Hash) (leaf_hash : Hash) : Except Error Hash :=
  if proof.tree_size = 0 ∨ proof.leaf_index ≥ proof.tree_size then .error .MerkleProofFailed
  else walk h leaf_hash proof.leaf_index proof.tree_size proof.audit_path

def compute_root (proof : MerkleProof Hash) (leaf_bytes : List UInt8) : Except Error Hash :=
  proof.compute_root_from_hash h (h.leaf_hash leaf_bytes)

def verify [DecidableEq Hash] (proof : MerkleProof Hash) (leaf_bytes : List UInt8) (expected_root : Hash) : Bool :=
  match proof.compute_root h leaf_bytes with
  | .ok computed => computed = expected_root
  | .error _ => false

end MerkleProof

/-! ## The root -/

/-- The hash of RFC 6962, section 2.1, over the hashes of the leaves. -/
def tree_hash_recursive (leaf_hashes : List Hash) : Hash := split_fold h.node_hash h.zero leaf_hashes

theorem from_hashes_ok {hashes : List Hash} (hne : hashes ≠ []) :
    from_hashes h hashes = .ok ⟨hashes :: climb h.node_hash hashes⟩ :=
  if_neg fun hempty => hne (List.isEmpty_iff.1 hempty)

theorem root_eq_top (hashes : List Hash) :
    (MerkleTree.root h ⟨hashes :: climb h.node_hash hashes⟩) = (top h.node_hash hashes).getD h.zero := rfl

theorem root_is_tree_hash {leaves : List (List UInt8)} (hne : leaves ≠ []) :
    ∃ tree, from_leaves h leaves = .ok tree ∧ tree.root h = tree_hash_recursive h (leaves.map h.leaf_hash) ∧
      from_hashes h (leaves.map h.leaf_hash) = .ok tree := by
  have hmap : leaves.map h.leaf_hash ≠ [] := fun hnil => hne (List.map_eq_nil_iff.1 hnil)
  refine ⟨_, from_hashes_ok h hmap, ?_, from_hashes_ok h hmap⟩
  rw [root_eq_top, top_eq_split_fold h.node_hash h.zero hmap]
  rfl

/-- Hashes as terms: each names what it was made of. -/
inductive Term where
  | zero
  | leaf (bytes : List UInt8)
  | node (left right : Term)
  deriving DecidableEq

def Hasher.terms : Hasher Term := ⟨.leaf, .node, .zero⟩

theorem root_is_tree_hash_three : [[0], [1], [2]] ≠ ([] : List (List UInt8)) ∧
    ∃ tree, from_leaves .terms [[0], [1], [2]] = .ok tree ∧
      tree.root .terms = tree_hash_recursive .terms ([[0], [1], [2]].map Hasher.terms.leaf_hash) ∧
      from_hashes .terms ([[0], [1], [2]].map Hasher.terms.leaf_hash) = .ok tree :=
  ⟨by decide, root_is_tree_hash .terms (by decide)⟩

/-! ## Inclusion -/

/-- The path of an index through the levels above a list. -/
def path_of (l : List Hash) (index : Nat) : List Hash := audit index (l :: climb h.node_hash l)

theorem path_of_singleton (a : Hash) (index : Nat) : path_of h [a] index = [] := by
  unfold path_of
  rw [audit, if_pos (by simp)]

theorem path_of_even {l : List Hash} {index : Nat} (hone : 1 < l.length) (heven : index % 2 = 0) :
    path_of h l index = l[index + 1]?.toList ++ path_of h (pair_up h.node_hash l) (index / 2) := by
  unfold path_of
  rw [audit, if_neg (by omega), if_pos heven, climb, if_pos hone]

theorem path_of_odd {l : List Hash} {index : Nat} (hone : 1 < l.length) (hodd : ¬ index % 2 = 0) :
    path_of h l index = l[index - 1]?.toList ++ path_of h (pair_up h.node_hash l) (index / 2) := by
  unfold path_of
  rw [audit, if_neg (by omega), if_neg hodd, climb, if_pos hone]

section Parents
variable {l : List Hash} {index : Nat} {a b : Hash}

theorem parent_even (heven : index % 2 = 0) (ha : l[index]? = some a) (hb : l[index + 1]? = some b) :
    (pair_up h.node_hash l)[index / 2]? = some (h.node_hash a b) := by
  rw [getElem?_pair_up, show 2 * (index / 2) = index by omega, ha, hb]

theorem parent_alone (heven : index % 2 = 0) (ha : l[index]? = some a) (hb : l[index + 1]? = none) :
    (pair_up h.node_hash l)[index / 2]? = some a := by
  rw [getElem?_pair_up, show 2 * (index / 2) = index by omega, ha, hb]

theorem parent_odd (hodd : ¬ index % 2 = 0) (ha : l[index]? = some a) (hb : l[index - 1]? = some b) :
    (pair_up h.node_hash l)[index / 2]? = some (h.node_hash b a) := by
  rw [getElem?_pair_up, show 2 * (index / 2) = index - 1 by omega, show index - 1 + 1 = index by omega, hb, ha]

end Parents

/-- The path of an index leads from its hash to the top. -/
theorem walk_path_of {l : List Hash} (hne : l ≠ []) : ∀ {index : Nat} {a : Hash}, l[index]? = some a →
    walk h a index l.length (path_of h l index) = .ok ((top h.node_hash l).getD h.zero) := by
  refine level_induction h.node_hash (P := fun l => ∀ {index : Nat} {a : Hash}, l[index]? = some a →
    walk h a index l.length (path_of h l index) = .ok ((top h.node_hash l).getD h.zero)) (fun b index a ha => ?_)
    (fun l hone ih index a ha => ?_) l hne
  · obtain ⟨hlt, rfl⟩ := List.getElem?_eq_some_iff.1 ha
    rw [path_of_singleton, walk.eq_def, if_neg (by simp), top_singleton]
    simp
  · have hlen := length_pair_up h.node_hash l
    obtain ⟨hlt, -⟩ := List.getElem?_eq_some_iff.1 ha
    rw [walk.eq_def, if_pos hone, top_of_one_lt h.node_hash hone, ← hlen]
    by_cases heven : index % 2 = 0
    · rw [if_pos heven, path_of_even h hone heven]
      by_cases hnext : index + 1 < l.length
      · have hb := List.getElem?_eq_getElem hnext
        rw [if_pos hnext, hb]
        exact ih (parent_even h heven ha hb)
      · have hb : l[index + 1]? = none := List.getElem?_eq_none (by omega)
        rw [if_neg hnext, hb]
        exact ih (parent_alone h heven ha hb)
    · have hb := List.getElem?_eq_getElem (l := l) (i := index - 1) (by omega)
      rw [if_neg heven, path_of_odd h hone heven, hb]
      exact ih (parent_odd h heven ha hb)

/-- With a node hash that names its parts, nothing else leads from an index to the top. -/
theorem walk_sound (hnode : ∀ a b a' b', h.node_hash a b = h.node_hash a' b' → a = a' ∧ b = b') {l : List Hash} (hne : l ≠ []) :
    ∀ {index : Nat} {a : Hash} {path : List Hash}, index < l.length →
      walk h a index l.length path = .ok ((top h.node_hash l).getD h.zero) → l[index]? = some a ∧ path = path_of h l index := by
  refine level_induction h.node_hash (P := fun l => ∀ {index : Nat} {a : Hash} {path : List Hash}, index < l.length →
    walk h a index l.length path = .ok ((top h.node_hash l).getD h.zero) → l[index]? = some a ∧ path = path_of h l index)
    (fun b index a path hlt hwalk => ?_) (fun l hone ih index a path hlt hwalk => ?_) l hne
  · rw [walk.eq_def, if_neg (by simp), top_singleton] at hwalk
    split_ifs at hwalk with hempty
    cases hwalk
    obtain rfl : index = 0 := by simpa using hlt
    exact ⟨rfl, (List.isEmpty_iff.1 hempty).trans (path_of_singleton h _ 0).symm⟩
  · have hlen := length_pair_up h.node_hash l
    have hup : index / 2 < (pair_up h.node_hash l).length := by omega
    have ha := List.getElem?_eq_getElem hlt
    rw [walk.eq_def, if_pos hone, top_of_one_lt h.node_hash hone, ← hlen] at hwalk
    by_cases heven : index % 2 = 0
    · rw [if_pos heven] at hwalk
      rw [path_of_even h hone heven]
      by_cases hnext : index + 1 < l.length
      · have hb := List.getElem?_eq_getElem hnext
        rw [if_pos hnext] at hwalk
        cases path with
        | nil => cases hwalk
        | cons sibling path =>
          obtain ⟨hparent, rfl⟩ := ih hup hwalk
          obtain ⟨rfl, rfl⟩ := hnode _ _ _ _ (Option.some.inj (hparent.symm.trans (parent_even h heven ha hb)))
          exact ⟨ha, by rw [hb]; rfl⟩
      · have hb : l[index + 1]? = none := List.getElem?_eq_none (by omega)
        rw [if_neg hnext] at hwalk
        obtain ⟨hparent, rfl⟩ := ih hup hwalk
        obtain rfl := Option.some.inj (hparent.symm.trans (parent_alone h heven ha hb))
        exact ⟨ha, by rw [hb]; rfl⟩
    · have hb := List.getElem?_eq_getElem (l := l) (i := index - 1) (by omega)
      rw [if_neg heven] at hwalk
      rw [path_of_odd h hone heven]
      cases path with
      | nil => cases hwalk
      | cons sibling path =>
        obtain ⟨hparent, rfl⟩ := ih hup hwalk
        obtain ⟨rfl, rfl⟩ := hnode _ _ _ _ (Option.some.inj (hparent.symm.trans (parent_odd h heven ha hb)))
        exact ⟨ha, by rw [hb]; rfl⟩

section Proofs
variable {leaves : List (List UInt8)} {tree : MerkleTree Hash}

theorem from_leaves_tree (htree : from_leaves h leaves = .ok tree) :
    leaves.map h.leaf_hash ≠ [] ∧ tree = ⟨leaves.map h.leaf_hash :: climb h.node_hash (leaves.map h.leaf_hash)⟩ := by
  unfold from_leaves from_hashes at htree
  split_ifs at htree with hempty
  exact ⟨fun hnil => hempty (List.isEmpty_iff.2 hnil), (Except.ok.inj htree).symm⟩

variable [DecidableEq Hash]

theorem verify_iff {proof : MerkleProof Hash} {leaf : List UInt8} {root : Hash} :
    proof.verify h leaf root = true ↔ proof.leaf_index < proof.tree_size ∧
      walk h (h.leaf_hash leaf) proof.leaf_index proof.tree_size proof.audit_path = .ok root := by
  unfold MerkleProof.verify MerkleProof.compute_root MerkleProof.compute_root_from_hash
  split_ifs with hbad
  · simp only [false_iff, not_and]
    intro hlt
    omega
  · cases hwalk : walk h (h.leaf_hash leaf) proof.leaf_index proof.tree_size proof.audit_path with
    | error e => simp
    | ok computed => simp; omega

/-- Every leaf has a proof that verifies; and with hashes that name what they were made of, a
proof for the size of the tree that verifies is the one for its index, of the leaf there. -/
theorem inclusion_proofs_exact (htree : from_leaves h leaves = .ok tree) :
    (∀ index leaf, leaves[index]? = some leaf →
      ∃ proof, tree.inclusion_proof index = .ok proof ∧ proof.verify h leaf (tree.root h) = true) ∧
    ((∀ a b, h.leaf_hash a = h.leaf_hash b → a = b) →
      (∀ a b a' b', h.node_hash a b = h.node_hash a' b' → a = a' ∧ b = b') →
      ∀ (proof : MerkleProof Hash) (leaf : List UInt8), proof.tree_size = leaves.length →
        proof.verify h leaf (tree.root h) = true →
        leaves[proof.leaf_index]? = some leaf ∧ tree.inclusion_proof proof.leaf_index = .ok proof) := by
  obtain ⟨hne, rfl⟩ := from_leaves_tree h htree
  have hsize : (leaves.map h.leaf_hash).length = leaves.length := List.length_map _
  refine ⟨fun index leaf hleaf => ?_, fun hinj hnode proof leaf hproof hverify => ?_⟩
  · obtain ⟨hlt, -⟩ := List.getElem?_eq_some_iff.1 hleaf
    have hhash : (leaves.map h.leaf_hash)[index]? = some (h.leaf_hash leaf) := by rw [List.getElem?_map, hleaf]; rfl
    refine ⟨_, if_neg ?_, (verify_iff h).2 ⟨?_, ?_⟩⟩
    · simp [MerkleTree.leaf_count, hlt]
    · simpa [MerkleTree.leaf_count] using hlt
    · exact walk_path_of h hne hhash
  · obtain ⟨hlt, hwalk⟩ := (verify_iff h).1 hverify
    rw [hproof, ← hsize] at hlt hwalk
    obtain ⟨hleaf, hpath⟩ := walk_sound h hnode hne hlt hwalk
    obtain ⟨leaf', hleaf', hhash⟩ := Option.map_eq_some_iff.1 (List.getElem?_map ▸ hleaf)
    refine ⟨(hinj _ _ hhash) ▸ hleaf', ?_⟩
    obtain ⟨tree_size, leaf_index, audit_path⟩ := proof
    dsimp only at *
    subst hproof hpath
    refine (if_neg ?_).trans ?_
    · simpa [MerkleTree.leaf_count] using hlt
    · simp [MerkleTree.leaf_count, path_of]

theorem inclusion_proofs_exact_three :
    ∃ tree, from_leaves .terms [[0], [1], [2]] = .ok tree ∧
      (∀ index leaf, [[0], [1], [2]][index]? = some leaf →
        ∃ proof, tree.inclusion_proof index = .ok proof ∧ proof.verify .terms leaf (tree.root .terms) = true) ∧
      ∀ (proof : MerkleProof Term) (leaf : List UInt8), proof.tree_size = 3 →
        proof.verify .terms leaf (tree.root .terms) = true →
        [[0], [1], [2]][proof.leaf_index]? = some leaf ∧ tree.inclusion_proof proof.leaf_index = .ok proof := by
  have htree : from_leaves .terms [[0], [1], [2]] = .ok _ := from_hashes_ok .terms (by decide)
  obtain ⟨hcomplete, hsound⟩ := inclusion_proofs_exact .terms htree
  refine ⟨_, htree, hcomplete, hsound (fun a b hab => ?_) fun a b a' b' hab => ?_⟩
  · cases hab
    rfl
  · cases hab
    exact ⟨rfl, rfl⟩

end Proofs

end
end Ambush.Merkle
