import OpenShell.Sandbox.Substitution

namespace OpenShell.Sandbox

open Text Results

/-! Segments that lead to another directory. -/

/-- The segment stands for this directory or for the one above. -/
def isTraversal (segment : List Char) : Prop :=
  percentDecode segment = ".".toList ∨ percentDecode segment = "..".toList

/-- The stretches of text and the secrets of the segment are dots alone, one or two of them in all. -/
def DotsAlone (resolver : SecretResolver) (segment : List Char) : Prop :=
  (∀ piece ∈ scan (percentDecode segment), ∀ c ∈ piece.filled resolver.secretOf, c = '.') ∧
    (((scan (percentDecode segment)).map fun piece => (piece.filled resolver.secretOf).length).sum = 1 ∨
      ((scan (percentDecode segment)).map fun piece => (piece.filled resolver.secretOf).length).sum = 2)

/-- No segment with a placeholder is filled with dots alone. -/
def NoDotsAlone (resolver : SecretResolver) (path : List Char) : Prop :=
  hasPlaceholder path = true → ∀ segment ∈ split '/' path, hasPlaceholder (percentDecode segment) = true →
    ¬ DotsAlone resolver segment

section Traversal

variable {resolver : SecretResolver} {path sent segment : List Char}

theorem replicate_dots (text : List Char) : text = ".".toList ∨ text = "..".toList ↔
    (∀ c ∈ text, c = '.') ∧ (text.length = 1 ∨ text.length = 2) := by
  constructor
  · rintro (rfl | rfl)
    · exact ⟨by simp, .inl rfl⟩
    · exact ⟨by simp, .inr rfl⟩
  · rintro ⟨dots, one | two⟩
    · left
      rw [List.eq_replicate_of_mem dots, one]
      rfl
    · right
      rw [List.eq_replicate_of_mem dots, two]
      rfl

theorem dotsAlone_iff : DotsAlone resolver segment ↔
    filled resolver.secretOf (scan (percentDecode segment)) = ".".toList ∨
      filled resolver.secretOf (scan (percentDecode segment)) = "..".toList := by
  rw [replicate_dots]
  unfold DotsAlone filled
  rw [List.length_flatMap]
  simp only [List.mem_flatMap, forall_exists_index, and_imp]
  constructor
  · rintro ⟨dots, few⟩
    exact ⟨fun c piece member inside => dots piece member c inside, few⟩
  · rintro ⟨dots, few⟩
    exact ⟨fun piece member c inside => dots c piece member inside, few⟩

/-- A segment that is sent is a traversal only for dots, since it is decoded to the pieces and their secrets. -/
theorem isTraversal_sent (clean : ¬ isTraversal segment) (sentAs : SegmentSent resolver segment sent) :
    isTraversal sent ↔ hasPlaceholder (percentDecode segment) = true ∧ DotsAlone resolver segment := by
  unfold SegmentSent at sentAs
  split at sentAs
  · rename_i placeholder
    rw [dotsAlone_iff, ← sentAs.2.1, isTraversal, and_iff_right placeholder]
  · rename_i plain
    rw [sentAs]
    exact ⟨fun dots => absurd dots clean, fun dots => absurd dots.1 plain⟩

/-- A path without traversals is sent without traversals exactly if none of its segments is filled with dots. -/
theorem traversal_iff (resolver : SecretResolver) (path sent : List Char)
    (clean : ∀ segment ∈ split '/' path, ¬ isTraversal segment) (resolves : Resolves resolver path sent) :
    (∀ segment ∈ split '/' sent, ¬ isTraversal segment) ↔ NoDotsAlone resolver path := by
  unfold NoDotsAlone
  rcases resolves_cases resolves with ⟨plain, rfl⟩ | ⟨placeholder, pieces, each, same⟩
  · simp only [plain, Bool.false_eq_true, false_imp_iff, iff_true]
    exact clean
  · have sentEach := segmentsSent each same
    simp only [placeholder, true_imp_iff]
    constructor
    · intro kept segment member decoded dots
      obtain ⟨sentSegment, sentIn, sentAs⟩ := exists_of_forall₂ sentEach.flip member
      exact kept sentSegment sentIn ((isTraversal_sent (clean segment member) sentAs).mpr ⟨decoded, dots⟩)
    · intro apart sentSegment sentIn traversal
      obtain ⟨segment, member, sentAs⟩ := exists_of_forall₂ sentEach sentIn
      obtain ⟨decoded, dots⟩ := (isTraversal_sent (clean segment member) sentAs).mp traversal
      exact apart segment member decoded dots

end Traversal

section Example

def dotTarget : List Char := "/a/.".toList ++ placeholderForEnvKey "KEY".toList ++ "/b".toList

theorem dotTarget_clean : ∀ segment ∈ split '/' dotTarget, ¬ isTraversal segment := by
  unfold isTraversal
  decide

theorem dotTarget_resolves : Resolves (keyResolver ".".toList) dotTarget "/a/../b".toList :=
  ⟨some ("/a/../b".toList, "/a/.[CREDENTIAL]/b".toList), by rfl, rfl⟩

/-- The dot before the placeholder and the dot that is the secret are sent as two dots. -/
theorem dotTarget_traverses : ∃ resolver path sent, (∀ segment ∈ split '/' path, ¬ isTraversal segment) ∧
    Resolves resolver path sent ∧ ¬ ∀ segment ∈ split '/' sent, ¬ isTraversal segment := by
  refine ⟨keyResolver ".".toList, dotTarget, _, dotTarget_clean, dotTarget_resolves, ?_⟩
  unfold isTraversal
  decide +kernel

theorem dotTarget_kept : Resolves (keyResolver "x".toList) dotTarget "/a/.x/b".toList ∧
    ∀ segment ∈ split '/' "/a/.x/b".toList, ¬ isTraversal segment := by
  have resolves : Resolves (keyResolver "x".toList) dotTarget "/a/.x/b".toList :=
    ⟨some ("/a/.x/b".toList, "/a/.[CREDENTIAL]/b".toList), by rfl, rfl⟩
  have letter : ∀ segment ∈ split '/' dotTarget, hasPlaceholder (percentDecode segment) = true →
      ∃ piece ∈ scan (percentDecode segment), 'x' ∈ piece.filled (keyResolver "x".toList).secretOf := by
    decide +kernel
  refine ⟨resolves, (traversal_iff (keyResolver "x".toList) dotTarget _ dotTarget_clean resolves).mpr ?_⟩
  intro _ segment member marked dots
  obtain ⟨piece, inside, shown⟩ := letter segment member marked
  exact absurd (dots.1 piece inside 'x' shown) (by decide)

end Example

end OpenShell.Sandbox
