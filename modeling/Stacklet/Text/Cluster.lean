import Stacklet.Text.Cluster.Role

set_option autoImplicit false
set_option relaxedAutoImplicit false

/-!
Clusters: a text cut into the groups of characters that a reader takes for one, such as a letter
with its accents, a syllable block, a flag, or pictures tied together. Main statement: the clusters
of a text put together are the text.
-/

namespace Stacklet.Text

namespace Role

/-- Whether a character of this role is a cluster of its own, a line end of two characters apart. -/
def standsAlone : Role → Bool
  | .carriageReturn | .lineFeed | .control => true
  | _ => false

def attaches : Role → Bool
  | .extender | .joiner | .spacingMark => true
  | _ => false

def continuesSyllable : Role → Role → Bool
  | .initial, next =>
      next = .initial || next = .medial || next = .openSyllable || next = .closedSyllable
  | .openSyllable, next | .medial, next => next = .medial || next = .final
  | .closedSyllable, next | .final, next => next = .final
  | _, _ => false

end Role

/-- Whether a character may stand between two consonants that a linker ties together. The
non-joiner keeps them apart. -/
def bridges (c : Char) : Bool :=
  c ≠ '\u200c' && (Role.ofChar c = .extender || Role.ofChar c = .joiner)

/-- Whether the cluster, its last character first, ends in a consonant and a linker after it. -/
def endsLinked (cluster : List Char) : Bool :=
  (cluster.takeWhile bridges).any isLinker &&
    (cluster.dropWhile bridges).head?.any fun c => Role.ofChar c = .consonant

def endsPictured (cluster : List Char) : Bool :=
  (cluster.dropWhile fun c => Role.ofChar c = .extender).head?.any fun c => Role.ofChar c = .picture

def endsHalved (cluster : List Char) : Bool :=
  (cluster.takeWhile fun c => Role.ofChar c = .flagHalf).length % 2 = 1

/-- Whether a character goes on with the cluster before it, which has its last character first. -/
def joins (cluster : List Char) (c : Char) : Bool :=
  match cluster with
  | [] => false
  | last :: earlier =>
      let before := Role.ofChar last
      let next := Role.ofChar c
      if before = .carriageReturn ∧ next = .lineFeed then true
      else if before.standsAlone || next.standsAlone then false
      else if next.attaches || before = .leader || before.continuesSyllable next then true
      else if next = .consonant then endsLinked cluster
      else if before = .joiner ∧ next = .picture then endsPictured earlier
      else if before = .flagHalf ∧ next = .flagHalf then endsHalved cluster
      else false

/-- Cuts a text into clusters; `cluster` is the one being read, its last character first. -/
def clustersFrom (cluster : List Char) : List Char → List (List Char)
  | [] => [cluster.reverse]
  | c :: cs =>
      if joins cluster c then clustersFrom (c :: cluster) cs
      else cluster.reverse :: clustersFrom [c] cs

def clusters : List Char → List (List Char)
  | [] => []
  | c :: cs => clustersFrom [c] cs

theorem flatten_clustersFrom (cluster cs : List Char) :
    (clustersFrom cluster cs).flatten = cluster.reverse ++ cs := by
  induction cs generalizing cluster with
  | nil => simp [clustersFrom]
  | cons c cs ih =>
    rw [clustersFrom]
    split
    · simp [ih]
    · simp [ih]

theorem flatten_clusters (cs : List Char) : (clusters cs).flatten = cs := by
  cases cs with
  | nil => rfl
  | cons c cs => simp [clusters, flatten_clustersFrom]

end Stacklet.Text
