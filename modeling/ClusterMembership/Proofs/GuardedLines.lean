import ClusterMembership.Lock.Moves
import ClusterMembership.Proofs.LockTails
import ClusterMembership.Proofs.Strand

/-!
# The first in a line holds the lock

Tasks may enter several locks, one inside another, and start further tasks, which take along the locks that count as
held where they are started.  Whatever they do, the chained tails guard the locks (`Stage.Guarded`): the first of those
whose requests for a lock have not been released is the one strand that was let into it and has not left it, and the
others wait for it.

A strand that makes a step goes on with the locks that it has, asks for one, or leaves a lock and passes it on
(`Stage.PassesOn`).  Each of these keeps the lines, what has ended, and what counts as held (`Stage.Succeeds`), and so
does every run of moves.
-/

namespace ClusterMembership

/-! ## What strands have of the locks -/

/-- The locks that sections have taken, rather than found held. -/
def taken (frames : List Frame) : List String := (frames.filter Frame.owns).map Frame.id

/-- In each of nested sections the locks that it and the outer ones have taken count as held, and none of them was
taken twice. -/
def WellNested : List Frame → Prop
  | [] => True
  | frame :: outer =>
    (∀ id ∈ taken (frame :: outer), id ∈ frame.held) ∧ (frame.owns = true → frame.id ∉ taken outer) ∧ WellNested outer

/-- Sections in all of which a lock counts as held, though none of them has taken it. -/
def Bypass (id : String) (frames : List Frame) : Prop :=
  ∀ frame ∈ frames, id ∈ frame.held ∧ (frame.owns = true → frame.id ≠ id)

theorem Bypass.not_taken {id : String} {frames : List Frame} (h : Bypass id frames) : id ∉ taken frames := by
  intro hmem
  obtain ⟨frame, hframe, rfl⟩ := List.mem_map.mp hmem
  obtain ⟨hframe, howns⟩ := List.mem_filter.mp hframe
  exact (h frame hframe).2 howns rfl

theorem Bypass.goesOn {id : String} {frame : Frame} {outer : List Frame} (h : Bypass id (frame :: outer))
    (rest : List Instruction) (paused : Bool) : Bypass id ({ frame with rest, paused } :: outer) :=
  List.forall_mem_cons.mpr (List.forall_mem_cons.mp h)

theorem Bypass.outer {id : String} {frame : Frame} {outer : List Frame} (h : Bypass id (frame :: outer)) :
    Bypass id outer :=
  (List.forall_mem_cons.mp h).2

/-- The requests of sections, each behind its lock. -/
def requestsOf (frames : List Frame) : List (String × Nat) :=
  frames.filterMap fun frame ↦ frame.request?.map fun request ↦ (frame.id, request)

theorem requestsOf_cons_of_some {frame : Frame} {request : Nat} (hrequest : frame.request? = some request)
    (outer : List Frame) : requestsOf (frame :: outer) = (frame.id, request) :: requestsOf outer := by
  simp [requestsOf, hrequest]

theorem requestsOf_cons_of_found {frame : Frame} (hfound : frame.owns = false) (outer : List Frame) :
    requestsOf (frame :: outer) = requestsOf outer := by
  simp [requestsOf, Frame.request?_of_found hfound]

theorem mem_taken_of_made {frames : List Frame} {made : String × Nat} (hmade : made ∈ requestsOf frames) :
    made.1 ∈ taken frames := by
  obtain ⟨frame, hframe, hsome⟩ := List.mem_filterMap.mp hmade
  obtain ⟨request, hrequest, rfl⟩ := Option.map_eq_some_iff.mp hsome
  exact List.mem_map_of_mem (List.mem_filter.mpr ⟨hframe, Option.isSome_of_mem hrequest⟩)

theorem taken_cons_of_owns {frame : Frame} (howns : frame.owns = true) (outer : List Frame) :
    taken (frame :: outer) = frame.id :: taken outer := by
  simp [taken, howns]

theorem taken_cons_of_found {frame : Frame} (hfound : frame.owns = false) (outer : List Frame) :
    taken (frame :: outer) = taken outer := by
  simp [taken, hfound]

/-- Sections stay well nested, with the same locks, while the innermost goes on. -/
theorem taken_goesOn (frame : Frame) (outer : List Frame) (rest : List Instruction) (paused : Bool) :
    taken ({ frame with rest, paused } :: outer) = taken (frame :: outer) := by
  cases howns : frame.owns
  · rw [taken_cons_of_found howns, taken_cons_of_found]
    exact howns
  · rw [taken_cons_of_owns howns, taken_cons_of_owns]
    exact howns

theorem WellNested.goesOn {frame : Frame} {outer : List Frame} (h : WellNested (frame :: outer))
    (rest : List Instruction) (paused : Bool) : WellNested ({ frame with rest, paused } :: outer) := by
  refine ⟨fun id hid ↦ ?_, h.2⟩
  rw [taken_goesOn] at hid
  exact h.1 id hid

namespace Strand

/-- The locks that a strand was let into and has not left. -/
def granted (strand : Strand) : List String :=
  match strand.stand with
  | .granted | .running | .ending _ => taken strand.frames
  | .waiting | .left _ => taken strand.frames.tail
  | .settled _ => []

theorem granted_subset (strand : Strand) : strand.granted ⊆ taken strand.frames := by
  have htail : taken strand.frames.tail ⊆ taken strand.frames :=
    (((List.tail_sublist strand.frames).filter Frame.owns).map Frame.id).subset
  unfold granted
  split
  · exact List.Subset.refl _
  · exact List.Subset.refl _
  · exact List.Subset.refl _
  · exact htail
  · exact htail
  · exact List.nil_subset _

/-- The requests that a strand has made and not released, each behind its lock. -/
def requests (strand : Strand) : List (String × Nat) :=
  match strand.stand with
  | .left _ => requestsOf strand.frames.tail
  | .settled _ => []
  | _ => requestsOf strand.frames

/-- The lock in whose line a strand waits behind others. -/
def awaited? (strand : Strand) : Option String :=
  match strand.stand with
  | .waiting => strand.frames.head?.map Frame.id
  | _ => none

/-- A strand that does not wait was let into the locks that it has made requests for. -/
theorem mem_granted_of_made {strand : Strand} (hfree : strand.awaited? = none) {made : String × Nat}
    (hmade : made ∈ strand.requests) : made.1 ∈ strand.granted := by
  obtain ⟨name, frames, stand⟩ := strand
  cases stand with
  | waiting =>
    obtain _ | ⟨frame, outer⟩ := frames
    · cases hmade
    · cases hfree
  | granted | running | ending | left => exact mem_taken_of_made hmade
  | settled => cases hmade

/-- A strand that has ended, or that has entered sections and in none of them needed to take a lock. -/
def Bypasses (strand : Strand) (id : String) : Prop :=
  strand.stand.IsSettled ∨ strand.frames ≠ [] ∧ Bypass id strand.frames

theorem Bypasses.of_going {strand : Strand} {id : String} (h : strand.Bypasses id)
    (hgoing : ¬ strand.stand.IsSettled) : Bypass id strand.frames :=
  (h.resolve_left hgoing).2

/-- A strand with well nested sections, of which the innermost has taken its lock when the strand waits for it, was
just let into it, or has just left it. -/
structure Regular (strand : Strand) : Prop where
  nested : WellNested strand.frames
  owns : ∀ {frame outer}, strand.frames = frame :: outer →
    strand.stand = .waiting ∨ strand.stand = .granted ∨ (∃ outcome, strand.stand = .left outcome) →
    frame.owns = true

namespace Regular

theorem settled (name : String) (outcome : SectionOutcome) : Regular ⟨name, [], .settled outcome⟩ := by
  refine ⟨trivial, ?_⟩
  rintro frame outer hframes -
  cases hframes

/-- A strand at work. -/
theorem working {frames : List Frame} (hnested : WellNested frames) (name : String) {stand : Stand}
    (hwork : stand.IsAtWork) : Regular ⟨name, frames, stand⟩ := by
  refine ⟨hnested, ?_⟩
  rintro frame outer - (rfl | rfl | ⟨outcome, rfl⟩) <;> exact hwork.elim

/-- A strand whose innermost section has taken its lock. -/
theorem of_owns {frame : Frame} {outer : List Frame} (hnested : WellNested (frame :: outer))
    (howns : frame.owns = true) (name : String) (stand : Stand) : Regular ⟨name, frame :: outer, stand⟩ := by
  refine ⟨hnested, ?_⟩
  rintro _ _ hframes -
  obtain ⟨rfl, -⟩ := List.cons.inj hframes
  exact howns

theorem owns_of_awaited? {strand : Strand} {id : String} (h : strand.Regular) (hawaited : strand.awaited? = some id) :
    ∃ frame outer, strand.frames = frame :: outer ∧ strand.stand = .waiting ∧ frame.id = id ∧ frame.owns = true := by
  unfold awaited? at hawaited
  split at hawaited
  · next hstand =>
    obtain ⟨frame, hhead, hid⟩ := Option.map_eq_some_iff.mp hawaited
    obtain ⟨outer, hframes⟩ := List.head?_eq_some_iff.mp hhead
    exact ⟨frame, outer, hframes, hstand, hid, h.owns hframes (.inl hstand)⟩
  · cases hawaited

/-- A strand that waits for a lock is let into it. -/
theorem grant {strand : Strand} {id : String} (h : strand.Regular) (hawaited : strand.awaited? = some id) :
    { strand with stand := .granted }.Regular ∧
      { strand with stand := .granted }.granted = id :: strand.granted ∧
      { strand with stand := .granted }.requests = strand.requests ∧ ¬ strand.stand.IsSettled := by
  obtain ⟨frame, outer, hframes, hstand, rfl, howns⟩ := h.owns_of_awaited? hawaited
  refine ⟨⟨h.nested, ?_⟩, ?_, ?_, ?_⟩
  · intro other others hother _
    obtain ⟨rfl, -⟩ := List.cons.inj (hframes.symm.trans hother)
    exact howns
  · simp only [granted, hstand, hframes, List.tail_cons]
    exact taken_cons_of_owns howns outer
  · simp only [requests, hstand]
  · rw [hstand]
    exact id

end Regular

end Strand

namespace Stage

/-- The locks that a strand was let into and has not left. -/
def grantedTo (stage : Stage) (number : Nat) : List String :=
  ((stage.strands[number]?).map Strand.granted).getD []

/-- A strand was let into a lock and has not left it. -/
def Holds (stage : Stage) (number : Nat) (id : String) : Prop := id ∈ stage.grantedTo number

instance (stage : Stage) (number : Nat) (id : String) : Decidable (stage.Holds number id) :=
  inferInstanceAs (Decidable (id ∈ stage.grantedTo number))

/-- The lock in whose line a strand waits behind others. -/
def awaitedBy? (stage : Stage) (number : Nat) : Option String := (stage.strands[number]?).bind Strand.awaited?

/-- A lock counts as held for a strand, though the strand has not taken it. -/
def Bypasses (stage : Stage) (number : Nat) (id : String) : Prop :=
  ∃ strand, stage.strands[number]? = some strand ∧ strand.Bypasses id

/-- The first in the line of a lock holds it, and the others wait for it; the line is a chain of requests, which the
strands know as theirs. -/
structure Guarded (stage : Stage) : Prop where
  regular : ∀ {number : Nat} {strand : Strand}, stage.strands[number]? = some strand → strand.Regular
  chained : stage.locks.Chained
  made : ∀ {number : Nat} {strand : Strand}, stage.strands[number]? = some strand →
    ∀ made ∈ strand.requests, stage.locks.IsMadeBy made.2 made.1 number
  nodup : ∀ id, (stage.locks.line id).Nodup
  holds : ∀ {number : Nat} {id : String}, stage.Holds number id ↔ (stage.locks.line id).head? = some number
  awaits : ∀ {number : Nat} {id : String}, stage.awaitedBy? number = some id ↔ number ∈ (stage.locks.line id).tail

/-- A stage that is reached from another one: the lines still guard the locks, what had ended has ended, and what
counted as held counts as held. -/
structure Succeeds (after before : Stage) : Prop where
  guarded : after.Guarded
  ended : ∀ {number : Nat}, before.HasEnded number → after.HasEnded number
  bypasses : ∀ {number : Nat} {id : String}, before.Bypasses number id → after.Bypasses number id

theorem Guarded.refl {stage : Stage} (h : stage.Guarded) : stage.Succeeds stage := ⟨h, id, id⟩

theorem Succeeds.trans {first second third : Stage} (h : third.Succeeds second) (hbefore : second.Succeeds first) :
    third.Succeeds first :=
  ⟨h.guarded, fun hended ↦ h.ended (hbefore.ended hended), fun hbypass ↦ h.bypasses (hbefore.bypasses hbypass)⟩

namespace Guarded

variable {stage : Stage} {number : Nat} {id : String}

/-- No lock is held by two. -/
theorem alone (h : stage.Guarded) {other : Nat} (hnumber : stage.Holds number id) (hother : stage.Holds other id) :
    number = other :=
  Option.some.inj ((h.holds.mp hnumber).symm.trans (h.holds.mp hother))

theorem line_eq_cons (h : stage.Guarded) (hholds : stage.Holds number id) :
    ∃ rest, stage.locks.line id = number :: rest := by
  have hhead := h.holds.mp hholds
  cases hline : stage.locks.line id with
  | nil => simp [hline] at hhead
  | cons first rest =>
    rw [hline] at hhead
    exact ⟨rest, by rw [Option.some.inj hhead]⟩

theorem mem_line_iff (h : stage.Guarded) :
    number ∈ stage.locks.line id ↔ stage.Holds number id ∨ stage.awaitedBy? number = some id := by
  rw [h.holds, h.awaits]
  cases stage.locks.line id with
  | nil => simp
  | cons first rest => simp [eq_comm]

end Guarded

/-! ## Changes of strands -/

section Replaced

variable {stage after : Stage} {number other : Nat} {strand next : Strand}

theorem grantedTo_of_some (hstrand : stage.strands[number]? = some strand) :
    stage.grantedTo number = strand.granted := by
  rw [grantedTo, hstrand]
  rfl

theorem awaitedBy?_of_some (hstrand : stage.strands[number]? = some strand) :
    stage.awaitedBy? number = strand.awaited? := by
  rw [awaitedBy?, hstrand]
  rfl

theorem holds_congr (h : after.strands[other]? = stage.strands[other]?) (id : String) :
    after.Holds other id ↔ stage.Holds other id := by
  rw [Holds, grantedTo, h, Holds, grantedTo]

theorem awaitedBy?_congr (h : after.strands[other]? = stage.strands[other]?) :
    after.awaitedBy? other = stage.awaitedBy? other := by
  rw [awaitedBy?, h, awaitedBy?]

theorem hasEnded_congr (h : after.strands[other]? = stage.strands[other]?) :
    after.HasEnded other ↔ stage.HasEnded other := by
  rw [HasEnded, stand?, h, HasEnded, stand?]

theorem bypasses_congr (h : after.strands[other]? = stage.strands[other]?) (id : String) :
    after.Bypasses other id ↔ stage.Bypasses other id := by
  rw [Bypasses, h, Bypasses]

theorem not_hasEnded_of_some (hstrand : stage.strands[number]? = some strand) (hgoing : ¬ strand.stand.IsSettled) :
    ¬ stage.HasEnded number := by
  rintro ⟨stand, hstand, hsettled⟩
  rw [stand?_of_some hstrand] at hstand
  exact hgoing (Option.some.inj hstand ▸ hsettled)

theorem strand_replaced (hset : after.strands = stage.strands.set number next)
    (hstrand : stage.strands[number]? = some strand) : after.strands[number]? = some next := by
  rw [hset, List.getElem?_set_self (List.getElem?_eq_some_iff.mp hstrand).1]

theorem strand_of_ne (hset : after.strands = stage.strands.set number next) (h : number ≠ other) :
    after.strands[other]? = stage.strands[other]? := by
  rw [hset, List.getElem?_set_ne h]

theorem locks_grantNext (stage : Stage) (request : Nat) : (stage.grantNext request).locks = stage.locks := by
  unfold grantNext
  split
  · rfl
  · split <;> rfl

/-- Who has waited for the tail of a request is let in. -/
theorem strand_grantNext (stage : Stage) (request other : Nat) :
    (stage.grantNext request).strands[other]? =
      if stage.locks.successor? request = some other then
        (stage.strands[other]?).map fun strand ↦ { strand with stand := .granted }
      else stage.strands[other]? := by
  cases hnext : stage.locks.successor? request with
  | none =>
    rw [grantNext_of_none hnext]
    exact (if_neg nofun).symm
  | some next =>
    cases hstrand : stage.strands[next]? with
    | none =>
      have hsame : stage.grantNext request = stage := by simp only [grantNext, hnext, hstrand]
      rw [hsame]
      split
      · next heq => rw [← Option.some.inj heq, hstrand, Option.map_none]
      · rfl
    | some strand =>
      rw [grantNext_of_some hnext hstrand]
      split
      · next heq =>
        rw [← Option.some.inj heq, hstrand, Option.map_some]
        exact strand_replaced rfl hstrand
      · next hne => exact strand_of_ne rfl fun heq ↦ hne (congrArg some heq)

/-- Regular strands stay regular when one is replaced by a regular one. -/
theorem regular_replaced (hregular : ∀ {number : Nat} {strand : Strand}, stage.strands[number]? = some strand →
      strand.Regular) (hset : after.strands = stage.strands.set number next) (hnext : next.Regular) {found : Strand}
    (hfound : after.strands[other]? = some found) : found.Regular := by
  rw [hset, List.getElem?_set] at hfound
  split at hfound
  · split at hfound
    · exact Option.some.inj hfound ▸ hnext
    · cases hfound
  · exact hregular hfound

/-- Strands know their requests when one is replaced that knows its own, and the others still know theirs. -/
theorem made_replaced (hset : after.strands = stage.strands.set number next)
    (hstrand : stage.strands[number]? = some strand)
    (hnext : ∀ made ∈ next.requests, after.locks.IsMadeBy made.2 made.1 number)
    (hothers : ∀ {other : Nat} {found : Strand}, number ≠ other → stage.strands[other]? = some found →
      ∀ made ∈ found.requests, after.locks.IsMadeBy made.2 made.1 other) {other : Nat} {found : Strand}
    (hfound : after.strands[other]? = some found) :
    ∀ made ∈ found.requests, after.locks.IsMadeBy made.2 made.1 other := by
  by_cases hne : number = other
  · subst hne
    rwa [← Option.some.inj ((strand_replaced hset hstrand).symm.trans hfound)]
  · exact hothers hne ((strand_of_ne hset hne).symm.trans hfound)

theorem ended_replaced (hset : after.strands = stage.strands.set number next)
    (hstrand : stage.strands[number]? = some strand) (hgoing : ¬ strand.stand.IsSettled)
    (hended : stage.HasEnded other) : after.HasEnded other := by
  have hne : number ≠ other := by
    rintro rfl
    exact not_hasEnded_of_some hstrand hgoing hended
  exact (hasEnded_congr (strand_of_ne hset hne)).mpr hended

theorem bypasses_replaced (hset : after.strands = stage.strands.set number next)
    (hstrand : stage.strands[number]? = some strand)
    (hnext : ∀ {id : String}, strand.Bypasses id → next.Bypasses id) {id : String}
    (hbypass : stage.Bypasses other id) : after.Bypasses other id := by
  by_cases hne : number = other
  · subst hne
    obtain ⟨found, hfound, hframes⟩ := hbypass
    obtain rfl : strand = found := Option.some.inj (hstrand.symm.trans hfound)
    exact ⟨next, strand_replaced hset hstrand, hnext hframes⟩
  · exact (bypasses_congr (strand_of_ne hset hne) id).mpr hbypass

end Replaced

/-! ## What a change does to the lines -/

section Lines

variable {line : List Nat} {number other : Nat}

theorem head?_concat_eq_some_iff :
    (line ++ [number]).head? = some other ↔ line.head? = some other ∨ line = [] ∧ number = other := by
  cases line <;> simp

theorem mem_tail_concat_iff : other ∈ (line ++ [number]).tail ↔ other ∈ line.tail ∨ line ≠ [] ∧ number = other := by
  cases line <;> simp [eq_comm]

/-- Who asks for a lock comes first in its line when no one was there. -/
theorem head?_line_ask (locks : LockTails) (asked id : String) (number other : Nat) :
    ((locks.ask asked number).line id).head? = some other ↔
      (locks.line id).head? = some other ∨ (locks.line asked = [] ∧ asked = id) ∧ number = other := by
  rw [LockTails.line_ask]
  split
  · next heq => rw [heq, head?_concat_eq_some_iff, and_iff_left rfl]
  · next hne => simp [hne]

/-- Who asks for a lock waits in its line when someone was there. -/
theorem mem_tail_line_ask (locks : LockTails) (asked id : String) (number other : Nat) :
    other ∈ ((locks.ask asked number).line id).tail ↔
      other ∈ (locks.line id).tail ∨ (locks.line asked ≠ [] ∧ asked = id) ∧ number = other := by
  rw [LockTails.line_ask]
  split
  · next heq => rw [heq, mem_tail_concat_iff, and_iff_left rfl]
  · next hne => simp [hne]

end Lines

namespace Guarded

variable {stage after : Stage} {number : Nat} {strand next : Strand} {id : String}

theorem of_same (h : stage.Guarded) (hstrands : after.strands = stage.strands) (hlocks : after.locks = stage.locks) :
    after.Succeeds stage := by
  have hsame (other : Nat) : after.strands[other]? = stage.strands[other]? := by rw [hstrands]
  refine ⟨⟨fun hstrand ↦ h.regular ((hsame _).symm.trans hstrand), hlocks ▸ h.chained,
    fun hstrand ↦ hlocks ▸ h.made ((hsame _).symm.trans hstrand), fun id ↦ hlocks ▸ h.nodup id,
    fun {number id} ↦ ?_, fun {number id} ↦ ?_⟩, fun hended ↦ (hasEnded_congr (hsame _)).mpr hended,
    fun hbypass ↦ (bypasses_congr (hsame _) _).mpr hbypass⟩
  · rw [holds_congr (hsame number), h.holds, hlocks]
  · rw [awaitedBy?_congr (hsame number), h.awaits, hlocks]

/-- A strand goes on with the locks that it was let into. -/
theorem put (h : stage.Guarded) (hstrand : stage.strands[number]? = some strand)
    (hgoing : ¬ strand.stand.IsSettled) (hnext : next.Regular) (hgranted : next.granted = strand.granted)
    (hawaited : next.awaited? = strand.awaited?) (hrequests : next.requests ⊆ strand.requests)
    (hbypass : ∀ {id : String}, strand.Bypasses id → next.Bypasses id)
    (hset : after.strands = stage.strands.set number next) (hlocks : after.locks = stage.locks) :
    after.Succeeds stage := by
  have hreplaced := strand_replaced hset hstrand
  refine ⟨⟨regular_replaced h.regular hset hnext, hlocks ▸ h.chained,
    made_replaced hset hstrand (fun made hmade ↦ hlocks ▸ h.made hstrand made (hrequests hmade))
      fun _ hfound made hmade ↦ hlocks ▸ h.made hfound made hmade, fun id ↦ hlocks ▸ h.nodup id,
    fun {other id} ↦ ?_, fun {other id} ↦ ?_⟩, ended_replaced hset hstrand hgoing,
    bypasses_replaced hset hstrand hbypass⟩
  · rw [hlocks, ← h.holds]
    by_cases hne : number = other
    · subst hne
      rw [Holds, grantedTo_of_some hreplaced, hgranted, Holds, grantedTo_of_some hstrand]
    · exact holds_congr (strand_of_ne hset hne) id
  · rw [hlocks, ← h.awaits]
    by_cases hne : number = other
    · subst hne
      rw [awaitedBy?_of_some hreplaced, hawaited, awaitedBy?_of_some hstrand]
    · rw [awaitedBy?_congr (strand_of_ne hset hne)]

/-- A strand that was let into no lock is added. -/
theorem add (h : stage.Guarded) (hadd : after.strands = stage.strands ++ [next])
    (hlocks : after.locks = stage.locks) (hnext : next.Regular) (hgranted : next.granted = [])
    (hfree : next.awaited? = none) (hrequests : next.requests = []) :
    after.Succeeds stage := by
  have hnew : after.strands[stage.strands.length]? = some next := by rw [hadd, List.getElem?_concat_length]
  have hnone : stage.strands[stage.strands.length]? = none := List.getElem?_eq_none (Nat.le_refl _)
  have hold {other : Nat} (hne : other ≠ stage.strands.length) :
      after.strands[other]? = stage.strands[other]? := by
    rw [hadd]
    obtain hlt | hgt := Nat.lt_or_gt_of_ne hne
    · rw [List.getElem?_append_left hlt]
    · rw [List.getElem?_eq_none (Nat.le_of_lt hgt), List.getElem?_eq_none (by rw [List.length_append]; exact hgt)]
  refine ⟨⟨fun {other found} hfound ↦ ?_, hlocks ▸ h.chained, fun {other found} hfound ↦ ?_,
    fun id ↦ hlocks ▸ h.nodup id, fun {other id} ↦ ?_, fun {other id} ↦ ?_⟩, fun {other} hended ↦ ?_,
    fun {other id} hbypass ↦ ?_⟩
  · by_cases hne : other = stage.strands.length
    · exact Option.some.inj (hnew.symm.trans (hne ▸ hfound)) ▸ hnext
    · exact h.regular ((hold hne).symm.trans hfound)
  · by_cases hne : other = stage.strands.length
    · obtain rfl := Option.some.inj (hnew.symm.trans (hne ▸ hfound))
      rw [hrequests]
      exact fun _ ↦ nofun
    · exact hlocks ▸ h.made ((hold hne).symm.trans hfound)
  · rw [hlocks, ← h.holds]
    by_cases hne : other = stage.strands.length
    · rw [hne, Holds, grantedTo_of_some hnew, hgranted, Holds, grantedTo, hnone]
      rfl
    · exact holds_congr (hold hne) id
  · rw [hlocks, ← h.awaits]
    by_cases hne : other = stage.strands.length
    · rw [hne, awaitedBy?_of_some hnew, hfree, awaitedBy?, hnone, Option.bind_none]
    · rw [awaitedBy?_congr (hold hne)]
  · refine (hasEnded_congr (hold ?_)).mpr hended
    rintro rfl
    obtain ⟨stand, hstand, -⟩ := hended
    rw [stand?, hnone] at hstand
    cases hstand
  · refine (bypasses_congr (hold ?_) id).mpr hbypass
    rintro rfl
    obtain ⟨strand, hstrand, -⟩ := hbypass
    rw [hnone] at hstrand
    cases hstrand

/-- A strand that was not let into a lock asks for it; it is let in at once when no one is in the line. -/
theorem asks (h : stage.Guarded) (hstrand : stage.strands[number]? = some strand)
    (hgoing : ¬ strand.stand.IsSettled) (hid : id ∉ strand.granted) (hfree : strand.awaited? = none)
    (hnext : next.Regular)
    (hgranted : ∀ lock, lock ∈ next.granted ↔ lock ∈ strand.granted ∨ stage.locks.line id = [] ∧ id = lock)
    (hawaited : ∀ lock, next.awaited? = some lock ↔ stage.locks.line id ≠ [] ∧ id = lock)
    (hrequests : next.requests = (id, stage.locks.requests.length) :: strand.requests)
    (hbypass : ∀ {id : String}, strand.Bypasses id → next.Bypasses id)
    (hset : after.strands = stage.strands.set number next) (hlocks : after.locks = stage.locks.ask id number) :
    after.Succeeds stage := by
  have hreplaced := strand_replaced hset hstrand
  have hnot : number ∉ stage.locks.line id := by
    rw [h.mem_line_iff, Holds, grantedTo_of_some hstrand, awaitedBy?_of_some hstrand, hfree]
    exact not_or_intro hid nofun
  refine ⟨⟨regular_replaced h.regular hset hnext, hlocks ▸ h.chained.ask id number,
    made_replaced hset hstrand (fun made hmade ↦ ?_) fun _ hfound made hmade ↦
      hlocks ▸ (h.made hfound made hmade).ask id number, fun lock ↦ ?_,
    fun {other lock} ↦ ?_, fun {other lock} ↦ ?_⟩, ended_replaced hset hstrand hgoing,
    bypasses_replaced hset hstrand hbypass⟩
  · rw [hrequests] at hmade
    rw [hlocks]
    obtain rfl | hmade := List.mem_cons.mp hmade
    · exact stage.locks.isMadeBy_ask id number
    · exact (h.made hstrand made hmade).ask id number
  · rw [hlocks, LockTails.line_ask]
    split
    · next heq => exact List.concat_eq_append ▸ (h.nodup lock).concat (heq ▸ hnot)
    · exact h.nodup lock
  · rw [hlocks, head?_line_ask, ← h.holds]
    by_cases hne : number = other
    · subst hne
      rw [Holds, grantedTo_of_some hreplaced, hgranted, Holds, grantedTo_of_some hstrand, and_iff_left rfl]
    · rw [holds_congr (strand_of_ne hset hne), or_iff_left fun heq ↦ hne heq.2]
  · rw [hlocks, mem_tail_line_ask, ← h.awaits]
    by_cases hne : number = other
    · subst hne
      rw [awaitedBy?_of_some hreplaced, hawaited, awaitedBy?_of_some hstrand, hfree, and_iff_left rfl]
      exact (or_iff_right nofun).symm
    · rw [awaitedBy?_congr (strand_of_ne hset hne), or_iff_left fun heq ↦ hne heq.2]

end Guarded

/-- A strand leaves a lock and becomes `next`: its request, the first that is left, is released, and of the others in
the line, `rest`, the first is let in. -/
structure PassesOn (stage after : Stage) (number : Nat) (id : String) (request : Nat) (next : Strand)
    (rest : List Nat) : Prop where
  line_eq : stage.locks.line id = number :: rest
  first_eq : (stage.locks.pending id).head? = some request
  locks_eq : after.locks = stage.locks.release id request
  number_eq : after.strands[number]? = some next
  first : ∀ {other : Nat}, rest.head? = some other → ∃ waiting, stage.strands[other]? = some waiting ∧
    waiting.awaited? = some id ∧ after.strands[other]? = some { waiting with stand := .granted }
  others : ∀ {other : Nat}, number ≠ other → rest.head? ≠ some other →
    after.strands[other]? = stage.strands[other]?

namespace PassesOn

variable {stage after : Stage} {number other request : Nat} {strand next : Strand} {id : String} {rest : List Nat}

theorem line_after (hpass : stage.PassesOn after number id request next rest) (lock : String) :
    after.locks.line lock = if id = lock then rest else stage.locks.line lock := by
  rw [hpass.locks_eq, LockTails.line_release_of_head hpass.first_eq]
  split
  · next heq => rw [← heq, hpass.line_eq, List.tail_cons]
  · rfl

/-- The request that is released is that of the strand that leaves. -/
theorem taskOf_eq (hpass : stage.PassesOn after number id request next rest) :
    stage.locks.taskOf request = number := by
  have hline := hpass.line_eq
  rw [LockTails.line_eq_map] at hline
  obtain ⟨others, hcons⟩ := List.head?_eq_some_iff.mp hpass.first_eq
  rw [hcons, List.map_cons] at hline
  exact (List.cons.inj hline).1

theorem distinct (hpass : stage.PassesOn after number id request next rest) (h : stage.Guarded) :
    number ∉ rest ∧ rest.Nodup :=
  List.nodup_cons.mp (hpass.line_eq ▸ h.nodup id)

/-- Who leaves, who is let in, and who stands where it stood. -/
theorem cases (_ : stage.PassesOn after number id request next rest) (other : Nat) :
    number = other ∨ rest.head? = some other ∨ number ≠ other ∧ rest.head? ≠ some other := by
  by_cases hne : number = other
  · exact .inl hne
  · by_cases hhead : rest.head? = some other
    · exact .inr (.inl hhead)
    · exact .inr (.inr ⟨hne, hhead⟩)

theorem regular (hpass : stage.PassesOn after number id request next rest) (h : stage.Guarded) (hnext : next.Regular)
    {found : Strand} (hfound : after.strands[other]? = some found) : found.Regular := by
  obtain rfl | hhead | ⟨hne, hhead⟩ := hpass.cases other
  · exact Option.some.inj (hpass.number_eq.symm.trans hfound) ▸ hnext
  · obtain ⟨waiting, hwaiting, hid, hgrant⟩ := hpass.first hhead
    exact Option.some.inj (hgrant.symm.trans hfound) ▸ ((h.regular hwaiting).grant hid).1
  · exact h.regular ((hpass.others hne hhead).symm.trans hfound)

theorem holds_iff (hpass : stage.PassesOn after number id request next rest) (h : stage.Guarded)
    (hstrand : stage.strands[number]? = some strand)
    (hgranted : ∀ lock, lock ∈ strand.granted ↔ lock = id ∨ lock ∈ next.granted) (hid : id ∉ next.granted)
    (lock : String) : after.Holds other lock ↔ (after.locks.line lock).head? = some other := by
  rw [hpass.line_after]
  obtain rfl | hhead | ⟨hne, hhead⟩ := hpass.cases other
  · rw [Holds, grantedTo_of_some hpass.number_eq]
    split
    · next heq =>
      exact iff_of_false (heq ▸ hid) fun hhead ↦ (hpass.distinct h).1 (List.mem_of_head? hhead)
    · next hne => rw [← h.holds, Holds, grantedTo_of_some hstrand, hgranted, or_iff_right (Ne.symm hne)]
  · obtain ⟨waiting, hwaiting, hawaited, hgrant⟩ := hpass.first hhead
    rw [Holds, grantedTo_of_some hgrant, ((h.regular hwaiting).grant hawaited).2.1, List.mem_cons]
    split
    · next heq => exact iff_of_true (.inl heq.symm) hhead
    · next hne => rw [← h.holds, Holds, grantedTo_of_some hwaiting, or_iff_right (Ne.symm hne)]
  · rw [holds_congr (hpass.others hne hhead), h.holds]
    split
    · next heq =>
      rw [← heq, hpass.line_eq]
      exact iff_of_false (fun hnumber ↦ hne (Option.some.inj hnumber)) hhead
    · rfl

theorem awaits_iff (hpass : stage.PassesOn after number id request next rest) (h : stage.Guarded)
    (hstrand : stage.strands[number]? = some strand) (hfree : strand.awaited? = none)
    (hawaited : next.awaited? = none) (lock : String) :
    after.awaitedBy? other = some lock ↔ other ∈ (after.locks.line lock).tail := by
  obtain ⟨hnot, hnodup⟩ := hpass.distinct h
  rw [hpass.line_after]
  obtain rfl | hhead | ⟨hne, hhead⟩ := hpass.cases other
  · rw [awaitedBy?_of_some hpass.number_eq, hawaited]
    refine iff_of_false nofun ?_
    split
    · exact fun hmem ↦ hnot (List.mem_of_mem_tail hmem)
    · rw [← h.awaits, awaitedBy?_of_some hstrand, hfree]
      exact nofun
  · obtain ⟨waiting, hwaiting, hid, hgrant⟩ := hpass.first hhead
    obtain ⟨others, rfl⟩ := List.head?_eq_some_iff.mp hhead
    rw [awaitedBy?_of_some hgrant]
    refine iff_of_false nofun ?_
    split
    · exact (List.nodup_cons.mp hnodup).1
    · next hlock =>
      rw [← h.awaits, awaitedBy?_of_some hwaiting, hid]
      exact fun heq ↦ hlock (Option.some.inj heq)
  · rw [awaitedBy?_congr (hpass.others hne hhead), h.awaits]
    split
    · next heq =>
      rw [← heq, hpass.line_eq, List.tail_cons]
      cases rest with
      | nil => rfl
      | cons first others => exact List.mem_cons.trans (or_iff_right fun heq ↦ hhead (congrArg some heq.symm))
    · rfl

theorem made (hpass : stage.PassesOn after number id request next rest) (h : stage.Guarded)
    (hstrand : stage.strands[number]? = some strand) (hrequests : next.requests ⊆ strand.requests)
    (hreleased : ∀ made ∈ next.requests, made.2 ≠ request) {found : Strand}
    (hfound : after.strands[other]? = some found) :
    ∀ made ∈ found.requests, after.locks.IsMadeBy made.2 made.1 other := by
  have hkept {found : Strand} (hne : number ≠ other) (hfound : stage.strands[other]? = some found) :
      ∀ made ∈ found.requests, after.locks.IsMadeBy made.2 made.1 other := fun made hmade ↦ by
    have hby := h.made hfound made hmade
    rw [hpass.locks_eq]
    refine hby.release id ?_
    rintro rfl
    exact hne (hpass.taskOf_eq.symm.trans hby.2)
  obtain rfl | hhead | ⟨hne, hhead⟩ := hpass.cases other
  · obtain rfl := Option.some.inj (hpass.number_eq.symm.trans hfound)
    intro made hmade
    rw [hpass.locks_eq]
    exact (h.made hstrand made (hrequests hmade)).release id (hreleased made hmade).symm
  · obtain ⟨waiting, hwaiting, hid, hgrant⟩ := hpass.first hhead
    obtain rfl := Option.some.inj (hgrant.symm.trans hfound)
    rw [((h.regular hwaiting).grant hid).2.2.1]
    refine hkept ?_ hwaiting
    rintro rfl
    exact (hpass.distinct h).1 (List.mem_of_head? hhead)
  · exact hkept hne ((hpass.others hne hhead).symm.trans hfound)

theorem ended (hpass : stage.PassesOn after number id request next rest) (h : stage.Guarded)
    (hstrand : stage.strands[number]? = some strand) (hgoing : ¬ strand.stand.IsSettled)
    (hended : stage.HasEnded other) : after.HasEnded other := by
  obtain rfl | hhead | ⟨hne, hhead⟩ := hpass.cases other
  · exact absurd hended (not_hasEnded_of_some hstrand hgoing)
  · obtain ⟨waiting, hwaiting, hid, -⟩ := hpass.first hhead
    exact absurd hended (not_hasEnded_of_some hwaiting ((h.regular hwaiting).grant hid).2.2.2)
  · exact (hasEnded_congr (hpass.others hne hhead)).mpr hended

theorem bypasses (hpass : stage.PassesOn after number id request next rest) (h : stage.Guarded)
    (hstrand : stage.strands[number]? = some strand)
    (hnext : ∀ {id : String}, strand.Bypasses id → next.Bypasses id) {lock : String}
    (hbypass : stage.Bypasses other lock) : after.Bypasses other lock := by
  obtain rfl | hhead | ⟨hne, hhead⟩ := hpass.cases other
  · obtain ⟨found, hfound, hframes⟩ := hbypass
    obtain rfl : strand = found := Option.some.inj (hstrand.symm.trans hfound)
    exact ⟨next, hpass.number_eq, hnext hframes⟩
  · obtain ⟨waiting, hwaiting, hawaited, hgrant⟩ := hpass.first hhead
    obtain ⟨found, hfound, hframes⟩ := hbypass
    obtain rfl : waiting = found := Option.some.inj (hwaiting.symm.trans hfound)
    have hgoing := ((h.regular hwaiting).grant hawaited).2.2.2
    exact ⟨_, hgrant, .inr (hframes.resolve_left hgoing)⟩
  · exact (bypasses_congr (hpass.others hne hhead) lock).mpr hbypass

end PassesOn

namespace Guarded

variable {stage after : Stage} {number request : Nat} {strand next : Strand} {id : String}

/-- A lock is passed on to the second in its line when the first becomes `next` and releases its request. -/
theorem exists_passesOn (h : stage.Guarded) (hstrand : stage.strands[number]? = some strand)
    (hid : id ∈ strand.granted) (hmade : (id, request) ∈ strand.requests)
    (hset : after.strands =
      (({ stage with locks := stage.locks.release id request } : Stage).grantNext request).strands.set number next)
    (hlocks : after.locks = stage.locks.release id request) :
    ∃ rest, stage.PassesOn after number id request next rest := by
  have hholds : stage.Holds number id := by rwa [Holds, grantedTo_of_some hstrand]
  obtain ⟨rest, hline⟩ := h.line_eq_cons hholds
  have hnot : number ∉ rest := (List.nodup_cons.mp (hline ▸ h.nodup id)).1
  have hfirst := (h.made hstrand _ hmade).head? (h.nodup id) (h.holds.mp hholds)
  have hpassed (other : Nat) :
      (({ stage with locks := stage.locks.release id request } : Stage).grantNext request).strands[other]? =
        if rest.head? = some other then (stage.strands[other]?).map fun strand ↦ { strand with stand := .granted }
        else stage.strands[other]? := by
    rw [strand_grantNext, h.chained.successor?_release hfirst, hline, List.tail_cons]
  refine ⟨rest, hline, hfirst, hlocks, ?_, fun {other} hhead ↦ ?_, fun {other} hne hhead ↦ ?_⟩
  · have hstill := hpassed number
    rw [if_neg fun hhead ↦ hnot (List.mem_of_head? hhead), hstrand] at hstill
    exact strand_replaced hset hstill
  · have hmem := List.mem_of_head? hhead
    have hawaits : stage.awaitedBy? other = some id := h.awaits.mpr (by rwa [hline])
    obtain ⟨waiting, hwaiting, hawaited⟩ := Option.bind_eq_some_iff.mp hawaits
    refine ⟨waiting, hwaiting, hawaited, ?_⟩
    rw [strand_of_ne hset fun heq ↦ hnot (heq ▸ hmem), hpassed, if_pos hhead, hwaiting, Option.map_some]
  · rw [strand_of_ne hset hne, hpassed, if_neg hhead]

/-- A strand leaves a lock. -/
theorem leaves (h : stage.Guarded) (hstrand : stage.strands[number]? = some strand)
    (hgoing : ¬ strand.stand.IsSettled) (hfree : strand.awaited? = none) (hnext : next.Regular)
    (hgranted : strand.granted = id :: next.granted) (hid : id ∉ next.granted) (hawaited : next.awaited? = none)
    (hmade : (id, request) ∈ strand.requests) (hrequests : next.requests ⊆ strand.requests)
    (hbypass : ∀ {id : String}, strand.Bypasses id → next.Bypasses id)
    (hset : after.strands =
      (({ stage with locks := stage.locks.release id request } : Stage).grantNext request).strands.set number next)
    (hlocks : after.locks = stage.locks.release id request) : after.Succeeds stage := by
  obtain ⟨rest, hpass⟩ := h.exists_passesOn hstrand (hgranted ▸ List.mem_cons_self) hmade hset hlocks
  have hreleased (made : String × Nat) (hmem : made ∈ next.requests) : made.2 ≠ request := by
    rintro rfl
    have hlock : made.1 = id :=
      LockTails.id_unique (h.made hstrand made (hrequests hmem)).1 (h.made hstrand _ hmade).1
    exact hid (hlock ▸ next.mem_granted_of_made hawaited hmem)
  refine ⟨⟨hpass.regular h hnext, hlocks ▸ h.chained.release hpass.first_eq,
    hpass.made h hstrand hrequests hreleased, fun lock ↦ ?_, fun {other lock} ↦ ?_,
    fun {other lock} ↦ hpass.awaits_iff h hstrand hfree hawaited lock⟩, hpass.ended h hstrand hgoing,
    hpass.bypasses h hstrand hbypass⟩
  · rw [hpass.line_after]
    split
    · exact (hpass.distinct h).2
    · exact h.nodup lock
  · exact hpass.holds_iff h hstrand (fun lock ↦ by rw [hgranted, List.mem_cons]) hid lock

end Guarded

/-! ## Steps of a strand -/

/-- A strand is inside nested sections: it has been let into just the locks that they have taken, with their requests,
and waits for none. -/
structure Inside (stage : Stage) (number : Nat) (frames : List Frame) : Prop where
  nested : WellNested frames
  stands : ∃ strand, stage.strands[number]? = some strand ∧ ¬ strand.stand.IsSettled ∧
    strand.granted = taken frames ∧ strand.awaited? = none ∧ strand.requests = requestsOf frames ∧
    ∀ {id : String}, strand.Bypasses id → Bypass id frames

/-- Sections stay the ones that they are while the innermost goes on. -/
theorem Inside.goesOn {stage : Stage} {number : Nat} {frame : Frame} {outer : List Frame}
    (hinside : stage.Inside number (frame :: outer)) (rest : List Instruction) (paused : Bool) :
    stage.Inside number ({ frame with rest, paused } :: outer) := by
  obtain ⟨strand, hstrand, hgoing, hgranted, hfree, hrequests, hbypass⟩ := hinside.stands
  refine ⟨hinside.nested.goesOn rest paused, strand, hstrand, hgoing, ?_, hfree, hrequests,
    fun h ↦ (hbypass h).goesOn rest paused⟩
  rw [taken_goesOn, hgranted]

namespace Guarded

variable {stage : Stage} {number : Nat} {frame : Frame} {frames outer : List Frame}

/-- A strand goes on inside the same sections. -/
theorem goesOn {after : Stage} (h : stage.Guarded) (hinside : stage.Inside number (frame :: outer)) {name : String}
    {stand : Stand} (hset : after.strands = stage.strands.set number ⟨name, frame :: outer, stand⟩)
    (hlocks : after.locks = stage.locks) (hwork : stand.IsAtWork) : after.Succeeds stage := by
  obtain ⟨strand, hstrand, hgoing, hgranted, hfree, hrequests, hbypass⟩ := hinside.stands
  have hnext := Strand.Regular.working hinside.nested name hwork
  refine h.put hstrand hgoing hnext ?_ ?_ ?_ (fun h ↦ .inr ⟨List.cons_ne_nil _ _, hbypass h⟩) hset hlocks
  · rw [hgranted]
    cases stand with
    | running | ending => rfl
    | _ => exact hwork.elim
  · rw [hfree]
    cases stand with
    | waiting => exact hwork.elim
    | _ => rfl
  · rw [hrequests]
    cases stand with
    | running | ending => exact List.Subset.refl _
    | _ => exact hwork.elim

theorem endSection (h : stage.Guarded) (hinside : stage.Inside number (frame :: outer)) (name : String)
    (outcome : SectionOutcome) : (stage.endSection number name frame outer outcome).Succeeds stage :=
  h.goesOn hinside rfl rfl trivial

/-- A strand enters a section: at once when the lock counts as held, and else through the line. -/
theorem enterSection (h : stage.Guarded) (hinside : stage.Inside number outer) {held : List String}
    (htaken : ∀ id ∈ taken outer, id ∈ held) (hbypassed : ∀ {id : String}, stage.Bypasses number id → id ∈ held)
    (name id : String) (body : List Instruction) (catches : Bool) :
    (stage.enterSection number name outer held id body catches).Succeeds stage := by
  obtain ⟨strand, hstrand, hgoing, hgranted, hfree, hrequests, hbypass⟩ := hinside.stands
  by_cases hid : id ∈ held
  · rw [enterSection_of_held hid]
    have hframe : stage.Inside number ({ id, held, rest := body, catches } :: outer) := by
      refine ⟨⟨?_, nofun, hinside.nested⟩, strand, hstrand, hgoing, ?_, hfree, ?_, fun {lock} h ↦ ?_⟩
      · rwa [taken_cons_of_found rfl]
      · rwa [taken_cons_of_found rfl]
      · rwa [requestsOf_cons_of_found rfl]
      · exact List.forall_mem_cons.mpr ⟨⟨hbypassed ⟨strand, hstrand, h⟩, nofun⟩, hbypass h⟩
    exact h.goesOn hframe rfl rfl trivial
  · let frame : Frame := { id, request? := some stage.locks.requests.length, held := id :: held, rest := body, catches }
    have howns : frame.owns = true := rfl
    have hnested : WellNested (frame :: outer) := by
      refine ⟨fun lock hlock ↦ ?_, fun _ hmem ↦ hid (htaken id hmem), hinside.nested⟩
      rw [taken_cons_of_owns howns] at hlock
      exact List.mem_cons.mpr ((List.mem_cons.mp hlock).imp_right (htaken lock))
    have hregular := Strand.Regular.of_owns hnested howns name
    have hnot : id ∉ strand.granted := fun hmem ↦ hid (htaken id (hgranted ▸ hmem))
    have hasked : requestsOf (frame :: outer) = (id, stage.locks.requests.length) :: strand.requests := by
      rw [requestsOf_cons_of_some rfl, hrequests]
    have hcarried {lock : String} (hlock : strand.Bypasses lock) : Bypass lock (frame :: outer) := by
      have hmem := hbypassed ⟨strand, hstrand, hlock⟩
      exact List.forall_mem_cons.mpr
        ⟨⟨List.mem_cons_of_mem id hmem, fun _ heq ↦ hid (Eq.subst heq.symm hmem)⟩, hbypass hlock⟩
    have hadmitted := h.chained.isAdmitted_ask_iff id number
    unfold Stage.enterSection
    rw [if_neg fun hcontains ↦ hid (List.contains_iff_mem.mp hcontains)]
    dsimp only
    split
    · next htrue =>
      have hline := hadmitted.mp htrue
      refine h.asks hstrand hgoing hnot hfree (hregular .granted) (fun lock ↦ ?_) (fun lock ↦ ?_) hasked
        (fun hlock ↦ .inr ⟨List.cons_ne_nil _ _, hcarried hlock⟩) rfl rfl
      · rw [Strand.granted, taken_cons_of_owns howns, hgranted, List.mem_cons, or_comm, and_iff_right hline, eq_comm]
      · exact iff_of_false nofun fun hempty ↦ hempty.1 hline
    · next hfalse =>
      have hline : stage.locks.line id ≠ [] := fun hnil ↦ hfalse (hadmitted.mpr hnil)
      refine h.asks hstrand hgoing hnot hfree (hregular .waiting) (fun lock ↦ ?_) (fun lock ↦ ?_) hasked
        (fun hlock ↦ .inr ⟨List.cons_ne_nil _ _, hcarried hlock⟩) rfl rfl
      · rw [hgranted]
        exact (or_iff_left fun hempty ↦ hline hempty.1).symm
      · exact Option.some_inj.trans (and_iff_right hline).symm

/-- The outer section of a strand goes on after an inner one. -/
theorem resume (h : stage.Guarded) (hinside : stage.Inside number outer) (name : String) (inner : Frame)
    (outcome : SectionOutcome) : (stage.resume number name inner outer outcome).Succeeds stage := by
  cases outer with
  | nil =>
    obtain ⟨strand, hstrand, hgoing, hgranted, hfree, hrequests, hbypass⟩ := hinside.stands
    exact h.put hstrand hgoing (.settled name outcome) hgranted.symm hfree.symm (List.nil_subset _)
      (fun _ ↦ .inl trivial) rfl rfl
  | cons frame others =>
    unfold Stage.resume
    dsimp only
    split
    · exact h.goesOn hinside rfl rfl trivial
    · split
      · exact h.goesOn hinside rfl rfl trivial
      · exact h.endSection hinside name _

/-- A section that has ended leaves its lock when it has taken it. -/
theorem leaveSection (h : stage.Guarded) {name : String} {outcome : SectionOutcome}
    (hstrand : stage.strands[number]? = some ⟨name, frame :: outer, .ending outcome⟩) :
    (stage.leaveSection number name frame outer outcome).Succeeds stage := by
  obtain ⟨hheld, hfresh, houter⟩ := (h.regular hstrand).nested
  have hgoing : ¬ (Strand.mk name (frame :: outer) (.ending outcome)).stand.IsSettled := id
  unfold Stage.leaveSection
  split
  · next hnone =>
    have hfound : frame.owns = false := by rw [Frame.owns, hnone, Option.isSome_none]
    refine h.resume ⟨houter, _, hstrand, hgoing, ?_, rfl, ?_, fun h ↦ (h.of_going hgoing).outer⟩ name frame outcome
    · exact taken_cons_of_found hfound outer
    · exact requestsOf_cons_of_found hfound outer
  · next request hrequest =>
    have howns : frame.owns = true := by rw [Frame.owns, hrequest, Option.isSome_some]
    have hgranted := taken_cons_of_owns howns outer
    have hfresh := hfresh howns
    have hrequests := requestsOf_cons_of_some hrequest outer
    have hmade : (frame.id, request) ∈ requestsOf (frame :: outer) := hrequests ▸ List.mem_cons_self
    cases outer with
    | nil =>
      exact h.leaves hstrand hgoing rfl (.settled name outcome) hgranted hfresh rfl hmade (List.nil_subset _)
        (fun _ ↦ .inl trivial) rfl (locks_grantNext _ _)
    | cons next others =>
      have hleft := Strand.Regular.of_owns (h.regular hstrand).nested howns name (.left outcome)
      have hkept : requestsOf (next :: others) ⊆ requestsOf (frame :: next :: others) :=
        hrequests ▸ List.subset_cons_self _ _
      exact h.leaves hstrand hgoing rfl hleft hgranted hfresh rfl hmade hkept
        (fun hbypass ↦ .inr ⟨List.cons_ne_nil _ _, hbypass.of_going hgoing⟩) rfl (locks_grantNext _ _)

/-- A new strand enters its first section. -/
theorem addStrand (h : stage.Guarded) (name : String) (held : List String) (id : String) (body : List Instruction) :
    (stage.addStrand name held id body).Succeeds stage := by
  set added : Stage := { stage with strands := stage.strands ++ [⟨name, [], .waiting⟩] } with hadded
  have hnew : added.strands[stage.strands.length]? = some ⟨name, [], .waiting⟩ := List.getElem?_concat_length
  have hsucceeds : added.Succeeds stage := h.add rfl rfl ⟨trivial, nofun⟩ rfl rfl rfl
  have hinside : added.Inside stage.strands.length [] :=
    ⟨trivial, _, hnew, fun hsettled ↦ hsettled, rfl, rfl, rfl, fun _ ↦ nofun⟩
  have hfresh {lock : String} : ¬ added.Bypasses stage.strands.length lock := by
    rintro ⟨found, hfound, hbypass⟩
    obtain rfl := Option.some.inj (hnew.symm.trans hfound)
    exact hbypass.elim (fun hsettled ↦ hsettled) fun hframes ↦ hframes.1 rfl
  have henter : Stage.Succeeds (stage.addStrand name held id body) added :=
    hsucceeds.guarded.enterSection hinside nofun (fun h ↦ absurd h hfresh) name id body false
  exact henter.trans hsucceeds

theorem execute (h : stage.Guarded) (hinside : stage.Inside number (frame :: outer)) (name : String)
    (instruction : Instruction) : (stage.execute number name frame outer instruction).Succeeds stage := by
  have hpaused := hinside.goesOn frame.rest true
  have hheld : ∀ id ∈ taken (frame :: outer), id ∈ frame.held := hinside.nested.1
  cases instruction with
  | log text => exact h.goesOn hinside rfl rfl trivial
  | tellHeld id => exact h.goesOn hinside rfl rfl trivial
  | wait gate =>
    unfold Stage.execute
    dsimp only
    split
    · exact h.goesOn hpaused rfl rfl trivial
    · exact h.goesOn hpaused rfl rfl trivial
  | fail message => exact h.endSection hinside name _
  | answer value => exact h.endSection hinside name _
  | enter id body catches =>
    rw [← taken_goesOn frame outer frame.rest true] at hheld
    have hbypassed {lock : String} (hbypass : stage.Bypasses number lock) : lock ∈ frame.held := by
      obtain ⟨strand, hstrand, -, -, -, -, hframes⟩ := hinside.stands
      obtain ⟨found, hfound, hlock⟩ := hbypass
      obtain rfl : strand = found := Option.some.inj (hstrand.symm.trans hfound)
      exact (hframes hlock frame List.mem_cons_self).1
    exact h.enterSection hpaused hheld hbypassed name id body catches
  | spawn child id body =>
    have hgoing : Stage.Succeeds ((stage.setStrand number ⟨name, frame :: outer, .running⟩).goOn number) stage :=
      h.goesOn hinside rfl rfl trivial
    exact (hgoing.guarded.addStrand child frame.held id body).trans hgoing

theorem advance (h : stage.Guarded) (number : Nat) : (stage.advance number).Succeeds stage := by
  have hinside {name : String} {frame : Frame} {outer : List Frame} {stand : Stand}
      (hstrand : stage.strands[number]? = some ⟨name, frame :: outer, stand⟩)
      (hstand : stand = .granted ∨ stand = .running) : stage.Inside number (frame :: outer) := by
    refine ⟨(h.regular hstrand).nested, _, hstrand, ?_⟩
    obtain rfl | rfl := hstand <;> exact ⟨id, rfl, rfl, rfl, fun h ↦ h.of_going id⟩
  unfold Stage.advance
  split
  · next name frame outer hstrand => exact h.goesOn (hinside hstrand (.inl rfl)) rfl rfl trivial
  · next name frame outer hstrand =>
    split
    · exact h.endSection (hinside hstrand (.inr rfl)) name _
    · next instruction rest _ =>
      exact h.execute ((hinside hstrand (.inr rfl)).goesOn rest frame.paused) name instruction
  · next name frame outer outcome hstrand => exact h.leaveSection hstrand
  · next name frame outer outcome hstrand =>
    have houter : stage.Inside number outer :=
      ⟨(h.regular hstrand).nested.2.2, _, hstrand, id, rfl, rfl, rfl, fun h ↦ (h.of_going id).outer⟩
    exact h.resume houter name frame outcome
  · exact h.refl

/-! ## Runs -/

theorem passTurn (h : stage.Guarded) : stage.passTurn.Succeeds stage := by
  unfold Stage.passTurn
  split
  · exact h.refl
  · next turn rest _ =>
    have hrest : Stage.Succeeds { stage with turns := rest } stage := h.of_same rfl rfl
    dsimp only
    split
    · exact (hrest.guarded.advance turn.task).trans hrest
    · exact h.of_same rfl rfl

theorem move (h : stage.Guarded) (move : StageMove) : (stage.move move).Succeeds stage := by
  cases move with
  | start name id body =>
    have hfresh : Stage.Succeeds { stage with log := [] } stage := h.of_same rfl rfl
    exact (hfresh.guarded.addStrand name [] id body).trans hfresh
  | openGate gate => exact h.of_same rfl rfl
  | go number => exact h.advance number
  | turn => exact h.passTurn

theorem after (h : stage.Guarded) (moves : List StageMove) : (stage.after moves).Succeeds stage := by
  induction moves generalizing stage with
  | nil => exact h.refl
  | cons move rest ih =>
    have hmove := h.move move
    exact (ih hmove.guarded).trans hmove

end Guarded

/-- The lines guard the locks when no task has been started. -/
theorem guarded_empty : ({} : Stage).Guarded where
  regular := nofun
  chained := .empty
  made := nofun
  nodup _ := List.nodup_nil
  holds := iff_of_false nofun nofun
  awaits := iff_of_false nofun nofun

/-- Whatever tasks are started, and whatever they start, the lines guard the locks. -/
theorem guarded_after (moves : List StageMove) : (({} : Stage).after moves).Guarded :=
  (guarded_empty.after moves).guarded

end Stage

end ClusterMembership
