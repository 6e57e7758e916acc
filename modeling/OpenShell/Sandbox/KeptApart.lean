import Mathlib.Data.List.Dedup
import OpenShell.Sandbox.HeaderSecrets
import OpenShell.Sandbox.Substitution

namespace OpenShell.Sandbox

open Text Results

/-! Replacing the placeholders of a token one after the other, over the whole text each time. -/

section Definitions

variable (resolver : SecretResolver)

/-- The secret of a placeholder of the map, whether it is allowed or not. -/
def SecretResolver.heldSecret (placeholder : List Char) : List Char :=
  (resolver.byPlaceholder.lookup placeholder).getD []

def SecretResolver.Knows (placeholder : List Char) : Prop := placeholder ∈ resolver.byPlaceholder.map Prod.fst

/-- The placeholder is one of the map, and its secret is allowed. -/
def SecretResolver.Allows (placeholder : List Char) : Prop := (resolver.resolvePlaceholder placeholder).isSome = true

/-- The piece once these placeholders have their secrets in place. -/
def Piece.partly (done : List (List Char)) : Piece → List Char
  | .literal text => text
  | .placeholder key =>
    if placeholderForEnvKey key ∈ done then resolver.heldSecret (placeholderForEnvKey key)
    else placeholderForEnvKey key

def partly (done : List (List Char)) (pieces : List Piece) : List Char := pieces.flatMap (·.partly resolver done)

/-- Once these placeholders have their secrets in place, the placeholder is found only where that very placeholder,
with no more key characters behind it, still stands. -/
def FindsOwn (done : List (List Char)) (pieces : List Piece) (key : List Char) : Prop :=
  ∀ offset ∈ matchIndices (placeholderForEnvKey key) (partly resolver done pieces),
    ∃ first rest, pieces = first ++ .placeholder key :: rest ∧ offset = (partly resolver done first).length

/-- Whichever placeholders already have their secrets, which are allowed, in place, every other one of the map is found
    only in its own places. -/
def KeptApart (text : List Char) : Prop :=
  ∀ (done : List (List Char)) (key : List Char), (∀ placeholder ∈ done, resolver.Allows placeholder) →
    resolver.Knows (placeholderForEnvKey key) → placeholderForEnvKey key ∉ done →
    FindsOwn resolver done (scan text) key

/-- When the map has this order, the replacements come to a placeholder that is found in another place than its own. -/
def Strays (order : List (List Char × List Char)) (text : List Char) : Prop :=
  ∃ before key secret after, order = before ++ (placeholderForEnvKey key, secret) :: after ∧
    replacePlaceholders text before = some (partly resolver (before.map Prod.fst) (scan text)) ∧
    ¬ FindsOwn resolver (before.map Prod.fst) (scan text) key

/-- The secret of the entry would be put into the text, and is not allowed. -/
def rejects (pieces : List Piece) (entry : List Char × List Char) : Bool :=
  (pieces.any fun
    | .literal _ => false
    | .placeholder key => placeholderForEnvKey key = entry.1) && !(validateResolvedSecret entry.2).isOk

/-- No placeholder is left in the text once those of the map are replaced by their secrets, one after the other, and the
secret of each that is found is allowed. -/
structure Replaced (text : List Char) : Prop where
  allowed : AllAllowed resolver.byPlaceholder text
  noneLeft : hasPlaceholder (withSecrets resolver.byPlaceholder text) = false

/-- Every placeholder of the text is known, with a secret that is allowed, and no other placeholder is in the text once
these are in their places. -/
structure AllPlaced (text : List Char) : Prop where
  known : ∀ key, .placeholder key ∈ scan text → resolver.Allows (placeholderForEnvKey key)
  noneLeft : hasPlaceholder (filled resolver.secretOf (scan text)) = false

/-- Placeholders that are kept apart are a matter of the text and its secrets alone. Others depend on the order. -/
inductive Clears (text : List Char) : Prop
  | apart (apart : KeptApart resolver text) (placed : AllPlaced resolver text)
  | mixed (mixed : ¬ KeptApart resolver text) (replaced : Replaced resolver text)

end Definitions

section Partly

variable {resolver : SecretResolver} {done others : List (List Char)} {pieces : List Piece} {key text : List Char}

theorem partly_congr (same : ∀ key, .placeholder key ∈ pieces →
    (placeholderForEnvKey key ∈ done ↔ placeholderForEnvKey key ∈ others)) :
    partly resolver done pieces = partly resolver others pieces := by
  unfold partly
  apply List.flatMap_congr
  intro piece member
  cases piece with
  | literal => rfl
  | placeholder key => simp only [Piece.partly, same key member]

theorem findsOwn_congr (same : ∀ key, .placeholder key ∈ pieces →
    (placeholderForEnvKey key ∈ done ↔ placeholderForEnvKey key ∈ others)) :
    FindsOwn resolver done pieces key ↔ FindsOwn resolver others pieces key := by
  unfold FindsOwn
  rw [partly_congr same]
  apply forall₂_congr
  intro offset _
  apply exists₂_congr
  intro first rest
  apply and_congr_right
  intro cut
  rw [partly_congr fun key member => same key (by rw [cut]; exact List.mem_append_left _ member)]

theorem partly_nil (pieces : List Piece) : partly resolver [] pieces = pieces.flatMap Piece.source := by
  unfold partly
  congr 1

theorem partly_append (first rest : List Piece) :
    partly resolver done (first ++ rest) = partly resolver done first ++ partly resolver done rest :=
  List.flatMap_append

theorem partly_cons (piece : Piece) (rest : List Piece) :
    partly resolver done (piece :: rest) = piece.partly resolver done ++ partly resolver done rest :=
  List.flatMap_cons

theorem lookup_of_mem {placeholder secret : List Char} (member : (placeholder, secret) ∈ resolver.byPlaceholder) :
    resolver.byPlaceholder.lookup placeholder = some secret := by
  have distinct := resolver.distinct
  obtain ⟨before, after, same⟩ := List.append_of_mem member
  apply List.lookup_eq_some_iff.mpr
  refine ⟨before, after, same, ?_⟩
  rw [same, List.map_append, List.map_cons] at distinct
  intro entry inside
  have apart := (List.nodup_append.mp distinct).2.2 entry.1 (List.mem_map_of_mem inside) placeholder
    (List.mem_cons_self ..)
  simpa using Ne.symm apart

theorem heldSecret_of_mem {placeholder secret : List Char} (member : (placeholder, secret) ∈ resolver.byPlaceholder) :
    resolver.heldSecret placeholder = secret := by
  rw [SecretResolver.heldSecret, lookup_of_mem member]
  rfl

theorem allows_of_mem {placeholder secret allowed : List Char}
    (member : (placeholder, secret) ∈ resolver.byPlaceholder) (checked : validateResolvedSecret secret = .ok allowed) :
    resolver.Allows placeholder := by
  unfold SecretResolver.Allows SecretResolver.resolvePlaceholder
  rw [lookup_of_mem member]
  simp [checked, Except.toOption]

theorem entry_of_allows {placeholder : List Char} (allows : resolver.Allows placeholder) :
    (placeholder, resolver.heldSecret placeholder) ∈ resolver.byPlaceholder ∧
      (validateResolvedSecret (resolver.heldSecret placeholder)).isOk = true := by
  obtain ⟨secret, resolved⟩ := Option.isSome_iff_exists.mp allows
  have member := (mem_of_resolved resolved).1
  rw [heldSecret_of_mem member]
  refine ⟨member, ?_⟩
  unfold SecretResolver.resolvePlaceholder at resolved
  rw [lookup_of_mem member] at resolved
  cases checked : validateResolvedSecret secret with
  | ok allowed => rfl
  | error problem =>
    rw [Option.bind_eq_bind, Option.bind_some, checked] at resolved
    cases resolved

theorem placeholder_ne_nil (key : List Char) : placeholderForEnvKey key ≠ [] := by
  exact List.append_ne_nil_of_left_ne_nil (by decide) key

/-- In a list of pieces, a placeholder that stands where another piece begins is that piece. -/
theorem piece_at {first rest front behind : List Piece} {piece : Piece} {start : Nat}
    (fresh : placeholderForEnvKey key ∉ done)
    (same : first ++ piece :: rest = front ++ .placeholder key :: behind)
    (place : (partly resolver done first).length + start = (partly resolver done front).length)
    (inside : start < (piece.partly resolver done).length) : piece = .placeholder key := by
  rcases List.append_eq_append_iff.mp same with ⟨gap, frontIs, restIs⟩ | ⟨gap, firstIs, restIs⟩
  · cases gap with
    | nil => exact (List.cons.inj restIs).1
    | cons other gap =>
      rw [List.cons_append, List.cons.injEq] at restIs
      rw [frontIs, partly_append, partly_cons, List.length_append, List.length_append, ← restIs.1] at place
      omega
  · cases gap with
    | nil => exact (List.cons.inj restIs).1.symm
    | cons other gap =>
      rw [List.cons_append, List.cons.injEq] at restIs
      have long : 0 < (Piece.partly resolver done (.placeholder key)).length := by
        rw [Piece.partly, if_neg fresh]
        exact List.length_pos_iff.mpr (placeholder_ne_nil key)
      rw [firstIs, partly_append, partly_cons, ← restIs.1, List.length_append, List.length_append] at place
      omega

theorem partly_other {piece : Piece} (other : piece ≠ .placeholder key) :
    piece.partly resolver (placeholderForEnvKey key :: done) = piece.partly resolver done := by
  cases piece with
  | literal text => rfl
  | placeholder envKey =>
    have differs : placeholderForEnvKey envKey ≠ placeholderForEnvKey key := by
      intro same
      rw [placeholderForEnvKey_injective same] at other
      exact other rfl
    simp only [Piece.partly, List.mem_cons, differs, false_or]

section Step

variable (own : FindsOwn resolver done pieces key) (fresh : placeholderForEnvKey key ∉ done)

include own fresh

/-- Replacing one placeholder puts its secret in its places and leaves the rest of the text. -/
theorem replace_partly : replace (placeholderForEnvKey key) (resolver.heldSecret (placeholderForEnvKey key))
    (partly resolver done pieces) = partly resolver (placeholderForEnvKey key :: done) pieces := by
  have from_here : ∀ first rest, pieces = first ++ rest →
      (∀ offset ∈ matchIndicesFrom (placeholderForEnvKey key) 0 (partly resolver done first).length
        (partly resolver done rest), offset ∈ matchIndices (placeholderForEnvKey key) (partly resolver done pieces)) →
      replaceFrom (placeholderForEnvKey key) (resolver.heldSecret (placeholderForEnvKey key)) 0
        (partly resolver done rest) = partly resolver (placeholderForEnvKey key :: done) rest := by
    intro first rest cut found
    induction rest generalizing first with
    | nil => rfl
    | cons piece rest ih =>
      have later := ih (first ++ [piece]) (by rw [cut, List.append_assoc]; rfl)
      rw [partly_append, List.length_append] at later
      rw [partly_cons] at found
      rw [partly_cons, partly_cons]
      by_cases here : piece = .placeholder key
      · have stands : piece.partly resolver done = placeholderForEnvKey key := by
          rw [here, Piece.partly, if_neg fresh]
        have filled : piece.partly resolver (placeholderForEnvKey key :: done) =
            resolver.heldSecret (placeholderForEnvKey key) := by
          rw [here, Piece.partly, if_pos (List.mem_cons_self ..)]
        rw [stands, matchIndicesFrom_pattern (placeholder_ne_nil key)] at found
        rw [stands, filled, replaceFrom_pattern (placeholder_ne_nil key), later]
        intro offset member
        rw [partly_cons, stands] at member
        exact found offset (List.mem_cons_of_mem _ (by simpa [partly] using member))
      · rcases @matchIndicesFrom_kept (placeholderForEnvKey key) (piece.partly resolver done)
          (partly resolver done rest) (partly resolver done first).length with ⟨apart, same⟩ | ⟨start, inside, starts⟩
        · rw [same] at found
          rw [replaceFrom_kept apart, partly_other here, later]
          intro offset member
          exact found offset (by simpa [partly] using member)
        · -- The placeholder is found inside this piece, so the piece is that placeholder.
          obtain ⟨front, tail, same, place⟩ := own _ (found _ starts)
          exact absurd (piece_at fresh (cut.symm.trans same) place inside) here
  exact from_here [] pieces rfl fun offset member => member

theorem contains_partly : contains (partly resolver done pieces) (placeholderForEnvKey key) = true ↔
    .placeholder key ∈ pieces := by
  rw [contains_iff_isInfixOf]
  constructor
  · intro held
    obtain ⟨offset, found⟩ := exists_matchIndices (placeholder_ne_nil key) held
    obtain ⟨first, rest, cut, _⟩ := own offset found
    rw [cut]
    exact List.mem_append_right _ (List.mem_cons_self ..)
  · intro member
    obtain ⟨first, rest, cut⟩ := List.append_of_mem member
    rw [cut, partly_append, partly_cons, Piece.partly, if_neg fresh]
    exact ⟨_, _, List.append_assoc ..⟩

end Step

theorem partly_absent {pieces : List Piece} (absent : .placeholder key ∉ pieces) :
    partly resolver (placeholderForEnvKey key :: done) pieces = partly resolver done pieces := by
  induction pieces with
  | nil => rfl
  | cons piece pieces ih =>
    rw [List.mem_cons, not_or] at absent
    rw [partly_cons, partly_cons, partly_other (Ne.symm absent.1), ih absent.2]

theorem rejects_iff {pieces : List Piece} {secret : List Char} :
    rejects pieces (placeholderForEnvKey key, secret) = true ↔
      .placeholder key ∈ pieces ∧ (validateResolvedSecret secret).isOk = false := by
  rw [rejects, Bool.and_eq_true, Bool.not_eq_true', List.any_eq_true]
  apply and_congr_left'
  constructor
  · rintro ⟨piece, member, here⟩
    cases piece with
    | literal text => cases here
    | placeholder envKey =>
      rw [← placeholderForEnvKey_injective (of_decide_eq_true here)]
      exact member
  · intro member
    exact ⟨_, member, by simp⟩

/-- One replacement, of a placeholder that is found only in its own places. -/
theorem replacePlaceholders_step {secret : List Char} {entries : List (List Char × List Char)}
    (own : FindsOwn resolver done pieces key) (fresh : placeholderForEnvKey key ∉ done)
    (held : resolver.heldSecret (placeholderForEnvKey key) = secret) :
    replacePlaceholders (partly resolver done pieces) ((placeholderForEnvKey key, secret) :: entries) =
      if rejects pieces (placeholderForEnvKey key, secret) then none
      else replacePlaceholders (partly resolver (placeholderForEnvKey key :: done) pieces) entries := by
  have contained := contains_partly own fresh
  rw [replacePlaceholders]
  by_cases present : .placeholder key ∈ pieces
  · rw [if_pos (contained.mpr present)]
    cases checked : validateResolvedSecret secret with
    | error problem =>
      have rejected : rejects pieces (placeholderForEnvKey key, secret) = true :=
        rejects_iff.mpr ⟨present, by rw [checked]; rfl⟩
      rw [rejected]
      rfl
    | ok allowed =>
      have accepted : ¬ rejects pieces (placeholderForEnvKey key, secret) = true := by
        rw [rejects_iff, checked]
        simp [Except.isOk, Except.toBool]
      have step := replace_partly own fresh
      rw [held] at step
      rw [if_neg accepted, (validateResolvedSecret_ok checked).1]
      simp only
      rw [step]
  · have accepted : ¬ rejects pieces (placeholderForEnvKey key, secret) = true := by
      rw [rejects_iff]
      exact fun rejected => present rejected.1
    rw [if_neg (mt contained.mp present), if_neg accepted, partly_absent present]

theorem allows_of_accepted {secret : List Char} (member : (placeholderForEnvKey key, secret) ∈ resolver.byPlaceholder)
    (accepted : ¬ rejects pieces (placeholderForEnvKey key, secret) = true) (present : .placeholder key ∈ pieces) :
    resolver.Allows (placeholderForEnvKey key) := by
  rw [rejects_iff] at accepted
  cases checked : validateResolvedSecret secret with
  | ok allowed => exact allows_of_mem member checked
  | error problem => exact absurd ⟨present, by rw [checked]; rfl⟩ accepted

/-- Placeholders that do not stand in the text make no difference. -/
theorem KeptApart.findsOwn (apart : KeptApart resolver text)
    (known : ∀ key, .placeholder key ∈ scan text → placeholderForEnvKey key ∈ done →
      resolver.Allows (placeholderForEnvKey key))
    (knows : resolver.Knows (placeholderForEnvKey key)) (fresh : placeholderForEnvKey key ∉ done) :
    FindsOwn resolver done (scan text) key := by
  have same : ∀ key, .placeholder key ∈ scan text → (placeholderForEnvKey key ∈ done ↔
      placeholderForEnvKey key ∈ done.filter fun placeholder => (resolver.resolvePlaceholder placeholder).isSome) := by
    intro key present
    rw [List.mem_filter]
    exact ⟨fun member => ⟨member, known key present member⟩, And.left⟩
  rw [findsOwn_congr same]
  apply apart
  · intro placeholder member
    exact (List.mem_filter.mp member).2
  · exact knows
  · exact fun member => fresh (List.mem_filter.mp member).1

/-- The replacements one after the other put every secret in its own places, in whatever order they are made. -/
theorem replacePlaceholders_partly (apart : KeptApart resolver text) {entries : List (List Char × List Char)}
    (members : ∀ entry ∈ entries, entry ∈ resolver.byPlaceholder) (distinct : (entries.map Prod.fst).Nodup)
    (known : ∀ key, .placeholder key ∈ scan text → placeholderForEnvKey key ∈ done →
      resolver.Allows (placeholderForEnvKey key)) (fresh : ∀ entry ∈ entries, entry.1 ∉ done) :
    replacePlaceholders (partly resolver done (scan text)) entries =
      if entries.any (rejects (scan text)) then none
      else some (partly resolver (entries.map Prod.fst ++ done) (scan text)) := by
  induction entries generalizing done with
  | nil => rfl
  | cons entry entries ih =>
    obtain ⟨placeholder, secret⟩ := entry
    have member := members _ (List.mem_cons_self ..)
    obtain ⟨key, isPlaceholder⟩ := resolver.placeholders _ member
    obtain rfl : placeholder = placeholderForEnvKey key := isPlaceholder
    have knows : resolver.Knows (placeholderForEnvKey key) := List.mem_map.mpr ⟨_, member, rfl⟩
    have freshKey := fresh _ (List.mem_cons_self ..)
    rw [List.map_cons, List.nodup_cons] at distinct
    rw [replacePlaceholders_step (apart.findsOwn known knows freshKey) freshKey (heldSecret_of_mem member),
      List.any_cons]
    by_cases rejected : rejects (scan text) (placeholderForEnvKey key, secret) = true
    · rw [rejected]
      rfl
    · rw [if_neg rejected, Bool.eq_false_iff.mpr rejected, Bool.false_or, ih]
      · -- The places are the same whether this placeholder stands before or among the later ones.
        congr 2
        apply partly_congr
        intro other _
        simp only [List.map_cons, List.mem_append, List.mem_cons]
        tauto
      · exact fun entry inside => members entry (List.mem_cons_of_mem _ inside)
      · exact distinct.2
      · intro other present inside
        rcases List.mem_cons.mp inside with same | earlier
        · rw [placeholderForEnvKey_injective same] at present ⊢
          exact allows_of_accepted member rejected present
        · exact known other present earlier
      · intro entry inside again
        rcases List.mem_cons.mp again with same | earlier
        · exact distinct.1 (List.mem_map.mpr ⟨entry, inside, same⟩)
        · exact fresh entry (List.mem_cons_of_mem _ inside) earlier

theorem replacePlaceholders_append (text : List Char) (before after : List (List Char × List Char)) :
    replacePlaceholders text (before ++ after) =
      (replacePlaceholders text before).bind fun current => replacePlaceholders current after := by
  induction before generalizing text with
  | nil => rfl
  | cons entry before ih =>
    obtain ⟨placeholder, secret⟩ := entry
    rw [List.cons_append, replacePlaceholders, replacePlaceholders]
    split
    · split
      · rfl
      · exact ih _
    · exact ih _

theorem Strays.append {order : List (List Char × List Char)} (strays : Strays resolver order text)
    (more : List (List Char × List Char)) : Strays resolver (order ++ more) text := by
  obtain ⟨before, key, secret, after, rfl, ran, stray⟩ := strays
  exact ⟨before, key, secret, after ++ more, by rw [List.append_assoc, List.cons_append], ran, stray⟩

theorem partly_whole (text : List Char) : partly resolver [] (scan text) = text := by
  rw [partly_nil]
  exact source_scanFor _ text

/-- Entries with allowed secrets all reach their own places, or a placeholder is found in another place. -/
theorem strays_or_replaced {entries : List (List Char × List Char)}
    (members : ∀ entry ∈ entries, entry ∈ resolver.byPlaceholder) (distinct : (entries.map Prod.fst).Nodup)
    (allowed : ∀ entry ∈ entries, (validateResolvedSecret entry.2).isOk = true) : Strays resolver entries text ∨
      replacePlaceholders text entries = some (partly resolver (entries.map Prod.fst) (scan text)) := by
  induction entries using List.reverseRecOn with
  | nil =>
    right
    rw [List.map_nil, partly_whole]
    rfl
  | append_singleton entries entry ih =>
    obtain ⟨placeholder, secret⟩ := entry
    have last : (placeholder, secret) ∈ entries ++ [(placeholder, secret)] := by simp
    obtain ⟨key, isPlaceholder⟩ := resolver.placeholders _ (members _ last)
    obtain rfl : placeholder = placeholderForEnvKey key := isPlaceholder
    rw [List.map_append, List.nodup_append] at distinct
    have earlier := ih (fun entry inside => members entry (List.mem_append_left _ inside)) distinct.1
      fun entry inside => allowed entry (List.mem_append_left _ inside)
    rcases earlier with strays | ran
    · exact .inl (strays.append _)
    · by_cases own : FindsOwn resolver (entries.map Prod.fst) (scan text) key
      · right
        have fresh : placeholderForEnvKey key ∉ entries.map Prod.fst := by
          intro inside
          exact distinct.2.2 _ inside _ (by simp) rfl
        have accepted : ¬ rejects (scan text) (placeholderForEnvKey key, secret) = true := by
          rw [rejects_iff, allowed _ last]
          simp
        rw [replacePlaceholders_append, ran, Option.bind_some,
          replacePlaceholders_step own fresh (heldSecret_of_mem (members _ last)), if_neg accepted, replacePlaceholders]
        congr 1
        apply partly_congr
        intro key _
        simp [or_comm]
      · exact .inl ⟨entries, key, secret, [], rfl, ran, own⟩

/-- The placeholders are kept apart exactly if in no order of the map one is found in another place than its own. -/
theorem keptApart_iff : KeptApart resolver text ↔
    ∀ order : List (List Char × List Char), order.Perm resolver.byPlaceholder → ¬ Strays resolver order text := by
  constructor
  · rintro apart order perm ⟨before, key, secret, after, rfl, ran, stray⟩
    have members : ∀ entry ∈ before, entry ∈ resolver.byPlaceholder :=
      fun entry inside => perm.mem_iff.mp (List.mem_append_left _ inside)
    have distinct : ((before ++ (placeholderForEnvKey key, secret) :: after).map Prod.fst).Nodup :=
      (perm.map Prod.fst).nodup_iff.mpr resolver.distinct
    rw [List.map_append, List.nodup_append] at distinct
    have replaced := @replacePlaceholders_partly resolver [] text apart before members distinct.1 (by simp) (by simp)
    rw [partly_whole, ran] at replaced
    have accepted : ¬ before.any (rejects (scan text)) = true := by
      intro rejected
      rw [if_pos rejected] at replaced
      cases replaced
    apply stray
    apply apart.findsOwn
    · intro other present inside
      obtain ⟨⟨placeholder, held⟩, entryInside, same⟩ := List.mem_map.mp inside
      obtain rfl : placeholder = placeholderForEnvKey other := same
      apply allows_of_accepted (members _ entryInside) _ present
      exact fun rejected => accepted (List.any_eq_true.mpr ⟨_, entryInside, rejected⟩)
    · exact List.mem_map.mpr ⟨_, perm.mem_iff.mp (List.mem_append_right _ (List.mem_cons_self ..)), rfl⟩
    · intro inside
      exact distinct.2.2 _ inside _ (by simp) rfl
  · intro never done key known knows fresh
    by_contra stray
    obtain ⟨⟨placeholder, secret⟩, member, isPlaceholder⟩ := List.mem_map.mp knows
    obtain rfl : placeholder = placeholderForEnvKey key := isPlaceholder
    -- In the order in which these placeholders come first, and then this one, it is found in another place.
    let first := done.dedup.map fun placeholder => (placeholder, resolver.heldSecret placeholder)
    have keys : first.map Prod.fst = done.dedup := by
      simp [first, Function.comp_def]
    have held : ∀ entry ∈ first, entry ∈ resolver.byPlaceholder ∧ (validateResolvedSecret entry.2).isOk = true := by
      intro entry inside
      obtain ⟨placeholder, inDone, rfl⟩ := List.mem_map.mp inside
      exact entry_of_allows (known placeholder (List.mem_dedup.mp inDone))
    have distinct : (first.map Prod.fst).Nodup := by
      rw [keys]
      exact List.nodup_dedup done
    have absent : (placeholderForEnvKey key, secret) ∉ first := by
      intro inside
      have inDone : placeholderForEnvKey key ∈ first.map Prod.fst := List.mem_map.mpr ⟨_, inside, rfl⟩
      rw [keys, List.mem_dedup] at inDone
      exact fresh inDone
    have nodup : ((placeholderForEnvKey key, secret) :: first).Nodup :=
      List.nodup_cons.mpr ⟨absent, distinct.of_map⟩
    have subset : (placeholderForEnvKey key, secret) :: first ⊆ resolver.byPlaceholder :=
      List.cons_subset.mpr ⟨member, fun entry inside => (held entry inside).1⟩
    obtain ⟨chosen, perm, sub⟩ := List.subperm_of_subset nodup subset
    obtain ⟨rest, whole⟩ := sub.exists_perm_append
    have order : (first ++ (placeholderForEnvKey key, secret) :: rest).Perm resolver.byPlaceholder :=
      List.perm_middle.trans ((perm.symm.append_right rest).trans whole.symm)
    apply never _ order
    rcases @strays_or_replaced resolver text first (fun entry inside => (held entry inside).1) distinct
      fun entry inside => (held entry inside).2 with strays | ran
    · exact strays.append _
    · refine ⟨first, key, secret, rest, rfl, ran, ?_⟩
      rw [keys]
      exact mt (findsOwn_congr fun _ _ => List.mem_dedup).mp stray

theorem partly_all {pieces : List Piece} (known : ∀ key, .placeholder key ∈ pieces → placeholderForEnvKey key ∈ done) :
    partly resolver done pieces = filled (fun key => resolver.heldSecret (placeholderForEnvKey key)) pieces := by
  induction pieces with
  | nil => rfl
  | cons piece pieces ih =>
    rw [partly_cons, ih fun key member => known key (List.mem_cons_of_mem _ member)]
    cases piece with
    | literal text => rfl
    | placeholder key =>
      rw [Piece.partly, if_pos (known key (List.mem_cons_self ..))]
      rfl

theorem replacePlaceholders_all (apart : KeptApart resolver text) {other : SecretResolver}
    (perm : other.byPlaceholder.Perm resolver.byPlaceholder) :
    replacePlaceholders text other.byPlaceholder =
      if resolver.byPlaceholder.any (rejects (scan text)) then none
      else some (partly resolver (resolver.byPlaceholder.map Prod.fst) (scan text)) := by
  have replaced := @replacePlaceholders_partly resolver [] text apart other.byPlaceholder
    (fun entry member => perm.mem_iff.mp member) other.distinct (by simp) (by simp)
  have same : partly resolver (other.byPlaceholder.map Prod.fst) (scan text) =
      partly resolver (resolver.byPlaceholder.map Prod.fst) (scan text) :=
    partly_congr fun key _ => (perm.map Prod.fst).mem_iff
  rw [partly_whole, List.append_nil, same, perm.any_eq] at replaced
  exact replaced

end Partly

end OpenShell.Sandbox
