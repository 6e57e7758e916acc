import OpenShell.Lib.Additions
import OpenShell.Lib.Machine
import OpenShell.Lib.Maps
import OpenShell.Sandbox.DenialDrafts

namespace OpenShell.Sandbox

open Additions

/-! The task that aggregates denials: every denial it receives is told in exactly one of the batches it flushes, and a
batch tells each of its denials exactly. -/

inductive AggregatorEvent where
  | denied (nowMs : Int) (event : DenialEvent)
  | tick
  | closed

/-- The state of `DenialAggregator::run`, with the batches its callback has been given. -/
structure DenialAggregator where
  summaries : Denials := ∅
  flushed : List (List DenialSummary) := []
  exited : Bool := false

namespace DenialAggregator

def flush (aggregator : DenialAggregator) : DenialAggregator :=
  if aggregator.summaries.entries.isEmpty then aggregator
  else { aggregator with summaries := ∅, flushed := aggregator.flushed ++ [drain aggregator.summaries] }

/-- One turn of the loop. -/
def step (aggregator : DenialAggregator) (event : AggregatorEvent) : DenialAggregator :=
  if aggregator.exited then aggregator
  else
    match event with
    | .denied nowMs event => { aggregator with summaries := ingest aggregator.summaries nowMs event }
    | .tick => aggregator.flush
    | .closed => { aggregator.flush with exited := true }

end DenialAggregator

/-- The denials that are received: the channel is closed behind the last one. -/
def received : List AggregatorEvent → List (Int × DenialEvent)
  | [] => []
  | .denied nowMs event :: rest => (nowMs, event) :: received rest
  | .tick :: rest => received rest
  | .closed :: _ => []

def DenialEvent.request (event : DenialEvent) : Option (String × String) :=
  match event.l7Method, event.l7Path with
  | some method, some path => some (method, path)
  | _, _ => none

/-- The requests of the denials, each with its number, for the first twenty different ones. -/
def samplesOf (requests : List (String × String)) : List L7RequestSample :=
  ((addMissing [] [] requests).take maxL7Samples).map fun request =>
    { method := request.1, path := request.2, count := UInt32.ofNat (requests.count request) }

/-- What denials with one key come to. -/
def aggregateOf : List (Int × DenialEvent) → Option AggregatedDenial
  | [] => none
  | first :: rest => some
    { firstSeen first.1 first.2 with
      lastSeenMs := ((first :: rest).getLast (List.cons_ne_nil _ _)).1
      count := UInt32.ofNat (rest.length + 1)
      l7Samples := samplesOf ((first :: rest).filterMap fun denial => denial.2.request) }

section Samples

variable {requests : List (String × String)} {request : String × String}

theorem addMissing_snoc :
    addMissing [] [] (requests ++ [request]) =
      if request ∈ addMissing [] [] requests then addMissing [] [] requests
      else addMissing [] [] requests ++ [request] := by
  unfold addMissing
  rw [List.foldl_append]
  simp

theorem any_samplesOf {method path : String} :
    ((samplesOf requests).any fun sample => sample.method == method && sample.path == path) = true ↔
      (method, path) ∈ (addMissing [] [] requests).take maxL7Samples := by
  simp only [samplesOf, List.any_map, List.any_eq_true, Function.comp_apply, Bool.and_eq_true, beq_iff_eq]
  constructor
  · intro found
    obtain ⟨held, member, rfl, rfl⟩ := found
    exact member
  · intro member
    exact ⟨_, member, rfl, rfl⟩

theorem sample_eq (held : String × String) :
    (⟨held.1, held.2, "deny", UInt32.ofNat ((requests ++ [request]).count held)⟩ : L7RequestSample) =
      if held = request then ⟨held.1, held.2, "deny", UInt32.ofNat (requests.count held) + 1⟩
      else ⟨held.1, held.2, "deny", UInt32.ofNat (requests.count held)⟩ := by
  rw [List.count_append, List.count_singleton]
  by_cases same : held = request
  · rw [if_pos same, if_pos (beq_iff_eq.mpr same.symm), UInt32.ofNat_add]
    rfl
  · rw [if_neg same, if_neg (by simpa using Ne.symm same), Nat.add_zero]

/-- A further request is counted as `ingest` counts it. -/
theorem samplesOf_snoc (method path : String) :
    addSample method path (samplesOf requests) = samplesOf (requests ++ [(method, path)]) := by
  have unchanged : ∀ held ∈ (addMissing [] [] requests).take maxL7Samples,
      (method, path) ∉ (addMissing [] [] requests).take maxL7Samples →
        (⟨held.1, held.2, "deny", UInt32.ofNat (requests.count held)⟩ : L7RequestSample) =
          ⟨held.1, held.2, "deny", UInt32.ofNat ((requests ++ [(method, path)]).count held)⟩ := by
    intro held member absent
    rw [sample_eq, if_neg]
    intro same
    exact absent (same ▸ member)
  unfold addSample
  split
  · rename_i any
    have kept := any_samplesOf.mp any
    unfold samplesOf
    rw [addMissing_snoc, if_pos (List.mem_of_mem_take kept), List.map_map]
    refine List.map_congr_left ?_
    intro held member
    rw [sample_eq]
    simp only [Function.comp_apply, Bool.and_eq_true, beq_iff_eq, Prod.ext_iff]
  · rename_i none
    have absent := fun member => none (any_samplesOf.mpr member)
    split
    · rename_i room
      have short : (addMissing [] [] requests).length < maxL7Samples := by
        simpa [samplesOf] using room
      have fresh : (method, path) ∉ addMissing [] [] requests := by
        rwa [List.take_of_length_le (Nat.le_of_lt short)] at absent
      unfold samplesOf
      rw [addMissing_snoc, if_neg fresh, List.take_of_length_le (Nat.le_of_lt short),
        List.take_of_length_le (by rw [List.length_append]; exact short), List.map_append]
      congr 1
      · refine List.map_congr_left ?_
        intro held member
        rw [List.take_of_length_le (Nat.le_of_lt short)] at unchanged absent
        exact unchanged held member absent
      · have unseen : requests.count (method, path) = 0 := by
          refine List.count_eq_zero.mpr fun member => fresh (mem_addMissing.mpr (.inr ⟨member, nofun⟩))
        simp [List.count_append, unseen]
    · rename_i full
      have long : maxL7Samples ≤ (addMissing [] [] requests).length := by
        simpa [samplesOf] using full
      have same : (addMissing [] [] (requests ++ [(method, path)])).take maxL7Samples =
          (addMissing [] [] requests).take maxL7Samples := by
        rw [addMissing_snoc]
        split
        · rfl
        · rw [List.take_append_of_le_length long]
      unfold samplesOf
      rw [same]
      exact List.map_congr_left fun held member => unchanged held member absent

end Samples

section Batches

/-- The summaries after the denials have come in. -/
def ingestAll (denials : List (Int × DenialEvent)) : Denials :=
  denials.foldl (fun summaries denial => ingest summaries denial.1 denial.2) ∅

def withKey (key : DenialKey) (denials : List (Int × DenialEvent)) : List (Int × DenialEvent) :=
  denials.filter fun denial => denial.2.key = key

theorem seenAgain_samples {entry : AggregatedDenial} {denials : List (Int × DenialEvent)}
    (soFar : entry.l7Samples = samplesOf (denials.filterMap fun denial => denial.2.request))
    (denial : Int × DenialEvent) :
    (entry.seenAgain denial.1 denial.2).l7Samples =
      samplesOf ((denials ++ [denial]).filterMap fun denial => denial.2.request) := by
  obtain ⟨nowMs, event⟩ := denial
  have requests : (denials ++ [(nowMs, event)]).filterMap (fun denial => denial.2.request) =
      (denials.filterMap fun denial => denial.2.request) ++ event.request.toList := by
    rw [List.filterMap_append]
    cases told : event.request <;> simp [told]
  rw [requests, AggregatedDenial.seenAgain, DenialEvent.request]
  cases event.l7Method with
  | none => simpa using soFar
  | some method =>
    cases event.l7Path with
    | none => simpa using soFar
    | some path =>
      simp only [soFar, Option.toList_some]
      exact samplesOf_snoc method path

theorem aggregateOf_snoc (denials : List (Int × DenialEvent)) (denial : Int × DenialEvent) :
    aggregateOf (denials ++ [denial]) =
      some (((aggregateOf denials).getD (firstSeen denial.1 denial.2)).seenAgain denial.1 denial.2) := by
  cases denials with
  | nil =>
    have samples := @seenAgain_samples (firstSeen denial.1 denial.2) [] rfl denial
    simp only [aggregateOf, List.nil_append, Option.getD_none] at samples ⊢
    rw [← samples]
    rfl
  | cons first rest =>
    have samples := @seenAgain_samples { firstSeen first.1 first.2 with
      lastSeenMs := ((first :: rest).getLast (List.cons_ne_nil _ _)).1
      count := UInt32.ofNat (rest.length + 1)
      l7Samples := samplesOf ((first :: rest).filterMap fun denial => denial.2.request) } (first :: rest) rfl denial
    simp only [aggregateOf, List.cons_append, Option.getD_some] at samples ⊢
    rw [← samples, List.getLast_cons (by simp), List.getLast_append_singleton, List.length_append,
      List.length_singleton, UInt32.ofNat_add (rest.length + 1)]
    rfl

theorem lookup_ingestAll (denials : List (Int × DenialEvent)) (key : DenialKey) :
    (ingestAll denials).lookup key = aggregateOf (withKey key denials) := by
  let merge (held : Option AggregatedDenial) (denial : Int × DenialEvent) : AggregatedDenial :=
    (held.getD (firstSeen denial.1 denial.2)).seenAgain denial.1 denial.2
  have merged : ∀ held : List (Int × DenialEvent),
      held.foldl (fun held denial => some (merge held denial)) none = aggregateOf held := by
    intro held
    induction held using List.reverseRecOn with
    | nil => rfl
    | append_singleton held denial ih => rw [List.foldl_append, ih, aggregateOf_snoc, List.foldl_cons, List.foldl_nil]
  rw [withKey, ← merged]
  exact Maps.lookup_foldl_insert (fun denial : Int × DenialEvent => denial.2.key) merge denials ∅ key

theorem aggregateOf_key {key : DenialKey} {denials : List (Int × DenialEvent)} {entry : AggregatedDenial}
    (told : aggregateOf (withKey key denials) = some entry) : (entry.host, entry.port, entry.binary) = key := by
  cases held : withKey key denials with
  | nil =>
    rw [held] at told
    cases told
  | cons first rest =>
    rw [held] at told
    cases told
    have member : first ∈ withKey key denials := by
      rw [held]
      exact List.mem_cons_self
    have own := (List.mem_filter.mp member).2
    exact of_decide_eq_true own

/-- A batch has one summary for each host, port and binary that was denied, and it tells how often, when for the first
and the last time, with the particulars of the first denial and the requests of all of them. -/
theorem collected_exact (denials : List (Int × DenialEvent)) :
    ((collected denials).map Mapper.summaryKey).Nodup ∧
      ∀ summary, summary ∈ collected denials ↔
        ∃ key entry, aggregateOf (withKey key denials) = some entry ∧ entry.summary = summary := by
  have stored : ∀ entry ∈ (ingestAll denials).entries,
      (entry.2.host, entry.2.port, entry.2.binary) = entry.1 := by
    intro entry member
    have found := Maps.lookup_of_mem member
    rw [lookup_ingestAll] at found
    exact aggregateOf_key found
  constructor
  · have keys : (collected denials).map Mapper.summaryKey =
        ((ingestAll denials).entries.map Sigma.fst).map fun key => (key.1, key.2.1.toUInt32, key.2.2) := by
      rw [List.map_map]
      unfold collected drain
      rw [List.map_map]
      refine List.map_congr_left ?_
      intro entry member
      have own := stored entry member
      simp only [Function.comp_apply, ← own]
      rfl
    rw [keys]
    refine List.Nodup.map ?_ (ingestAll denials).nodupKeys
    intro first second same
    simp only [Prod.mk.injEq, UInt16.toUInt32_inj] at same
    exact Prod.ext same.1 (Prod.ext same.2.1 same.2.2)
  · intro summary
    constructor
    · intro member
      obtain ⟨entry, held, told⟩ := List.mem_map.mp member
      refine ⟨entry.1, entry.2, ?_, told⟩
      rw [← lookup_ingestAll]
      exact Maps.lookup_of_mem held
    · intro known
      obtain ⟨key, entry, told, rfl⟩ := known
      rw [← lookup_ingestAll] at told
      exact List.mem_map.mpr ⟨⟨key, entry⟩, Maps.mem_of_lookup told, rfl⟩

end Batches

section Flushes

variable {events : List AggregatorEvent}

/-- The batches so far tell the denials so far, in order, but for those behind the last flush. -/
structure Told (aggregator : DenialAggregator) (segments : List (List (Int × DenialEvent)))
    (pending : List (Int × DenialEvent)) : Prop where
  summaries : aggregator.summaries = ingestAll pending
  flushed : aggregator.flushed = segments.map collected
  nonempty : ∀ segment ∈ segments, segment ≠ []
  exited : aggregator.exited = true → pending = []

theorem ingestAll_isEmpty {denials : List (Int × DenialEvent)} :
    (ingestAll denials).entries.isEmpty = true ↔ denials = [] := by
  constructor
  · intro empty
    cases denials with
    | nil => rfl
    | cons first rest =>
      have told := lookup_ingestAll (first :: rest) first.2.key
      have nothing : (ingestAll (first :: rest)).lookup first.2.key = none := by
        unfold AList.lookup
        rw [List.isEmpty_iff.mp empty]
        rfl
      rw [nothing, withKey, List.filter_cons_of_pos (by simp)] at told
      cases told
  · intro same
    rw [same]
    rfl

theorem Told.flush {aggregator : DenialAggregator} {segments : List (List (Int × DenialEvent))}
    {pending : List (Int × DenialEvent)} (told : Told aggregator segments pending) :
    ∃ segments', segments'.flatten = segments.flatten ++ pending ∧ Told aggregator.flush segments' [] := by
  obtain ⟨summaries, flushed, nonempty, exited⟩ := told
  unfold DenialAggregator.flush
  rw [summaries]
  by_cases none : pending = []
  · subst none
    refine ⟨segments, by simp, ?_⟩
    rw [if_pos (ingestAll_isEmpty.mpr rfl)]
    exact ⟨summaries, flushed, nonempty, fun _ => rfl⟩
  · refine ⟨segments ++ [pending], by simp, ?_⟩
    rw [if_neg (mt ingestAll_isEmpty.mp none)]
    refine ⟨rfl, ?_, ?_, fun _ => rfl⟩
    · rw [flushed, List.map_append]
      rfl
    · intro segment member
      rcases List.mem_append.mp member with before | last
      · exact nonempty segment before
      · rw [List.mem_singleton.mp last]
        exact none

theorem Told.run {aggregator : DenialAggregator} {segments : List (List (Int × DenialEvent))}
    {pending : List (Int × DenialEvent)} (told : Told aggregator segments pending) (events : List AggregatorEvent) :
    ∃ segments' pending', Told (events.foldl DenialAggregator.step aggregator) segments' pending' ∧
      segments'.flatten ++ pending' =
        segments.flatten ++ pending ++ if aggregator.exited then [] else received events := by
  induction events generalizing aggregator segments pending with
  | nil => exact ⟨segments, pending, told, by simp [received]⟩
  | cons event events ih =>
    rw [List.foldl_cons]
    cases ended : aggregator.exited with
    | true =>
      have idle : aggregator.step event = aggregator := by
        unfold DenialAggregator.step
        rw [if_pos ended]
      rw [idle]
      obtain ⟨segments', pending', later, whole⟩ := ih told
      rw [ended] at whole
      exact ⟨segments', pending', later, whole⟩
    | false =>
      cases event with
      | denied nowMs denial =>
        have taken : Told (aggregator.step (.denied nowMs denial)) segments (pending ++ [(nowMs, denial)]) := by
          have stepped : aggregator.step (.denied nowMs denial) =
              { aggregator with summaries := ingest aggregator.summaries nowMs denial } := by
            unfold DenialAggregator.step
            rw [ended]
            rfl
          rw [stepped]
          refine ⟨?_, told.flushed, told.nonempty, ?_⟩
          · rw [told.summaries, ingestAll, ingestAll, List.foldl_append]
            rfl
          · intro closed
            rw [ended] at closed
            cases closed
        obtain ⟨segments', pending', later, whole⟩ := ih taken
        refine ⟨segments', pending', later, ?_⟩
        rw [whole]
        simp [DenialAggregator.step, ended, received]
      | tick =>
        obtain ⟨flushed, same, kept⟩ := told.flush
        have stepped : aggregator.step .tick = aggregator.flush := by
          unfold DenialAggregator.step
          rw [ended]
          rfl
        have running : aggregator.flush.exited = false := by
          unfold DenialAggregator.flush
          split <;> exact ended
        rw [stepped]
        obtain ⟨segments', pending', later, whole⟩ := ih kept
        refine ⟨segments', pending', later, ?_⟩
        rw [whole, same, running]
        simp [received]
      | closed =>
        obtain ⟨flushed, same, kept⟩ := told.flush
        have stepped : aggregator.step .closed = { aggregator.flush with exited := true } := by
          unfold DenialAggregator.step
          rw [ended]
          rfl
        have last : Told { aggregator.flush with exited := true } flushed [] :=
          ⟨kept.summaries, kept.flushed, kept.nonempty, fun _ => rfl⟩
        rw [stepped]
        obtain ⟨segments', pending', later, whole⟩ := ih last
        refine ⟨segments', pending', later, ?_⟩
        rw [whole, same]
        simp [received]

/-- In every run the batches, in the order of their flushes, tell the denials that were received, each in one batch, and
those that wait come behind them all. Once the task has ended none waits. -/
theorem flushed_segments (events : List AggregatorEvent) :
    ∃ (segments : List (List (Int × DenialEvent))) (pending : List (Int × DenialEvent)),
      segments.flatten ++ pending = received events ∧ (∀ segment ∈ segments, segment ≠ []) ∧
      (events.foldl DenialAggregator.step {}).flushed = segments.map collected ∧
      ((events.foldl DenialAggregator.step {}).exited = true → pending = []) := by
  have start : Told {} [] [] := ⟨rfl, rfl, fun _ member => absurd member List.not_mem_nil, fun _ => rfl⟩
  obtain ⟨segments, pending, told, whole⟩ := start.run events
  exact ⟨segments, pending, by simpa using whole, told.nonempty, told.flushed, told.exited⟩

end Flushes

end OpenShell.Sandbox
