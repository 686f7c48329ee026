import ClusterMembership.Proofs.GuardedLines

/-!
# Tasks that outlive the section they were started in

A task that is started without waiting for it takes along the locks that count as held where it is started.  For such a
lock it stands in no line: it begins at once, and it goes on when the section that held the lock has ended.  The lock is
passed on when the strand that holds it leaves it, whether or not the tasks that it started have ended, and so the next
in the line begins beside them.
-/

namespace ClusterMembership

namespace Stage

section Spawned

variable {stage : Stage} {holder next inner : Nat} {id : String}

/-- A strand that holds a lock is about to start a task for that lock, without waiting for it. -/
def IsSpawning (stage : Stage) (holder : Nat) (id : String) : Prop :=
  stage.Holds holder id ∧ ∃ name frame outer child body rest,
    stage.strands[holder]? = some ⟨name, frame :: outer, .running⟩ ∧ frame.rest = .spawn child id body :: rest

/-- A strand is about to leave a lock that it has taken, and another one is next in the line. -/
def IsLeaving (stage : Stage) (holder next : Nat) (id : String) : Prop :=
  ∃ name frame outer outcome rest, stage.strands[holder]? = some ⟨name, frame :: outer, .ending outcome⟩ ∧
    frame.owns = true ∧ frame.id = id ∧ stage.locks.line id = holder :: next :: rest

/-- A task for which a lock counts as held stands nowhere in the line of the lock. -/
theorem Bypasses.not_mem_line (h : stage.Guarded) (hbypass : stage.Bypasses inner id) :
    inner ∉ stage.locks.line id := by
  obtain ⟨strand, hstrand, hbypass⟩ := hbypass
  rw [h.mem_line_iff, Holds, grantedTo_of_some hstrand, awaitedBy?_of_some hstrand]
  obtain hsettled | ⟨-, hframes⟩ := hbypass
  · obtain ⟨name, frames, stand⟩ := strand
    cases stand with
    | settled outcome => exact not_or_intro List.not_mem_nil (Option.some_ne_none id).symm
    | _ => exact hsettled.elim
  · refine not_or_intro (fun hmem ↦ ?_) fun hawaited ↦ ?_
    · exact hframes.not_taken (strand.granted_subset hmem)
    · obtain ⟨frame, outer, hcons, -, hid, howns⟩ := (h.regular hstrand).owns_of_awaited? hawaited
      exact (hframes frame (hcons ▸ List.mem_cons_self)).2 howns hid

theorem strands_addStrand_of_held {held : List String} (hheld : id ∈ held) (stage : Stage) (name : String)
    (body : List Instruction) :
    (stage.addStrand name held id body).strands =
      stage.strands ++ [⟨name, [{ id, held, rest := body }], .running⟩] := by
  unfold addStrand
  rw [enterSection_of_held hheld]
  exact (List.set_append_right _ _ (Nat.le_refl _)).trans (by rw [Nat.sub_self, List.set_cons_zero])

/-- A task that is started under a lock for the same lock is at work at once, and stands in no line of it. -/
theorem IsSpawning.advance (h : stage.Guarded) (hspawning : stage.IsSpawning holder id) :
    (stage.advance holder).IsAtWork stage.strands.length ∧
      (stage.advance holder).Bypasses stage.strands.length id := by
  obtain ⟨hholds, name, frame, outer, child, body, rest, hstrand, hrest⟩ := hspawning
  have hheld : id ∈ frame.held := by
    rw [Holds, grantedTo_of_some hstrand] at hholds
    exact (h.regular hstrand).nested.1 id hholds
  have hinner : (stage.advance holder).strands[stage.strands.length]? =
      some ⟨child, [{ id, held := frame.held, rest := body }], .running⟩ := by
    unfold Stage.advance
    rw [hstrand]
    dsimp only
    rw [hrest]
    change (Stage.addStrand _ child frame.held id body).strands[stage.strands.length]? = _
    rw [strands_addStrand_of_held hheld]
    change (stage.strands.set holder _ ++ _)[stage.strands.length]? = _
    rw [← List.length_set, List.getElem?_concat_length]
  refine ⟨⟨.running, stand?_of_some hinner, trivial⟩, _, hinner, .inr ⟨List.cons_ne_nil _ _, ?_⟩⟩
  exact List.forall_mem_singleton.mpr ⟨hheld, fun howns ↦ absurd howns Bool.false_ne_true⟩

/-- A section that has taken its lock ends: its request is released, the lock is passed on, and the strand goes on or
has ended. -/
theorem exists_left {name : String} {frame : Frame} {outer : List Frame} {outcome : SectionOutcome} {request : Nat}
    (hstrand : stage.strands[holder]? = some ⟨name, frame :: outer, .ending outcome⟩)
    (hrequest : frame.request? = some request) :
    ∃ left, (stage.advance holder).strands =
        (({ stage with locks := stage.locks.release frame.id request } : Stage).grantNext request).strands.set holder
          left ∧
      (stage.advance holder).locks = stage.locks.release frame.id request := by
  unfold Stage.advance
  rw [hstrand]
  dsimp only
  unfold leaveSection
  rw [hrequest]
  cases outer with
  | nil => exact ⟨_, rfl, locks_grantNext _ _⟩
  | cons next others => exact ⟨_, rfl, locks_grantNext _ _⟩

/-- Who is next in the line begins when the first has left the lock, and all others stand where they stood. -/
theorem IsLeaving.advance (h : stage.Guarded) (hleaving : stage.IsLeaving holder next id) :
    ((stage.advance holder).advance next).Holds next id ∧ ((stage.advance holder).advance next).IsAtWork next ∧
      ∀ other, other ≠ holder → other ≠ next →
        ((stage.advance holder).advance next).strands[other]? = stage.strands[other]? := by
  obtain ⟨name, frame, outer, outcome, rest, hstrand, howns, rfl, hline⟩ := hleaving
  obtain ⟨request, hrequest⟩ := Frame.request?_of_owns howns
  obtain ⟨left, hset, hlocks⟩ := exists_left hstrand hrequest
  have hmade : (frame.id, request) ∈ (Strand.mk name (frame :: outer) (.ending outcome)).requests := by
    rw [Strand.requests, requestsOf_cons_of_some hrequest]
    exact List.mem_cons_self
  have hgranted : frame.id ∈ (Strand.mk name (frame :: outer) (.ending outcome)).granted := by
    rw [Strand.granted, taken_cons_of_owns howns]
    exact List.mem_cons_self
  obtain ⟨others, hpass⟩ := h.exists_passesOn hstrand hgranted hmade hset hlocks
  obtain rfl : next :: rest = others := (List.cons.inj (hline.symm.trans hpass.line_eq)).2
  obtain ⟨waiting, hwaiting, hawaited, hgrant⟩ := hpass.first rfl
  obtain ⟨first, below, hframes, -, hid, hfirst⟩ := (h.regular hwaiting).owns_of_awaited? hawaited
  rw [hframes] at hgrant
  have hbegun : ((stage.advance holder).advance next).strands =
      (stage.advance holder).strands.set next ⟨waiting.name, first :: below, .running⟩ := by
    rw [Stage.advance, hgrant]
    rfl
  have hnext := strand_replaced hbegun hgrant
  refine ⟨?_, ⟨.running, stand?_of_some hnext, trivial⟩, fun other hother hne ↦ ?_⟩
  · rw [Holds, grantedTo_of_some hnext, Strand.granted, taken_cons_of_owns hfirst, hid]
    exact List.mem_cons_self
  · rw [strand_of_ne hbegun hne.symm]
    exact hpass.others hother.symm fun heq ↦ hne (Option.some.inj heq).symm

end Spawned

/-- A task that is started under a lock for the same lock begins at once and stands in no line.  While it has not
ended, no other task has the lock unless the one that started it has given the lock up; and when that one gives it up,
the next in the line begins beside the task that was started. -/
theorem spawned_beside_next {before : List StageMove} {holder : Nat} {id : String}
    (hspawning : (({} : Stage).after before).IsSpawning holder id) :
    let inner := (({} : Stage).after before).strands.length
    let started := (({} : Stage).after before).advance holder
    started.IsAtWork inner ∧
      ∀ later, inner ∉ (started.after later).locks.line id ∧
        (¬ (started.after later).HasEnded inner →
          (∀ other, (started.after later).Holds other id →
            (other = holder ∧ ∀ past, past <+: later → (started.after past).Holds holder id) ∨
              ∃ past, past <+: later ∧ ¬ (started.after past).Holds holder id ∧
                ¬ (started.after past).HasEnded inner) ∧
          ∀ next, (started.after later).IsLeaving holder next id →
            let passed := ((started.after later).advance holder).advance next
            next ≠ inner ∧ passed.Holds next id ∧ passed.IsAtWork next ∧ ¬ passed.HasEnded inner) := by
  intro inner started
  have hguarded := guarded_after before
  obtain ⟨hwork, hbypass⟩ := hspawning.advance hguarded
  have hstarted := (hguarded.advance holder).guarded
  have hinner : holder ≠ inner := by
    obtain ⟨-, name, frame, outer, child, body, rest, hstrand, -⟩ := hspawning
    exact Nat.ne_of_lt (List.getElem?_eq_some_iff.mp hstrand).1
  refine ⟨hwork, fun later ↦ ?_⟩
  have hlater := hstarted.after later
  have hnot := (hlater.bypasses hbypass).not_mem_line hlater.guarded
  refine ⟨hnot, fun hgoing ↦ ⟨fun other hother ↦ ?_, fun next hleaving ↦ ?_⟩⟩
  · by_cases hheld : ∀ past, past <+: later → (started.after past).Holds holder id
    · exact .inl ⟨hlater.guarded.alone hother (hheld later (List.prefix_refl later)), hheld⟩
    · obtain ⟨past, hsome⟩ := not_forall.mp hheld
      obtain ⟨hpast, hleft⟩ := Classical.not_imp.mp hsome
      refine .inr ⟨past, hpast, hleft, fun hended ↦ hgoing ?_⟩
      obtain ⟨rest, rfl⟩ := hpast
      have hrest := (hstarted.after past).guarded.after rest
      rw [Stage.after, List.foldl_append]
      exact hrest.ended hended
  · have hne : next ≠ inner := by
      rintro rfl
      obtain ⟨-, -, -, -, rest, -, -, -, hline⟩ := hleaving
      exact hnot (hline ▸ List.mem_cons_of_mem holder List.mem_cons_self)
    obtain ⟨hholds, hbegun, hothers⟩ := hleaving.advance hlater.guarded
    exact ⟨hne, hholds, hbegun, (hasEnded_congr (hothers inner hinner.symm hne.symm)).not.mpr hgoing⟩

/-- A task that starts another one under its lock and ends at once, with a third one in the line. -/
def sampleSpawning : List StageMove :=
  [.start "first" "dn1" [.spawn "inner" "dn1" [.wait "gate", .log "inner ends"]],
    .start "second" "dn1" [.log "second begins"], .go 0]

theorem spawned_beside_next_of_sample :
    (({} : Stage).after sampleSpawning).IsSpawning 0 "dn1" ∧
      let leaving := ((({} : Stage).after sampleSpawning).advance 0).after [.go 2, .go 0]
      leaving.IsLeaving 0 1 "dn1" ∧ ((leaving.advance 0).advance 1).IsAtWork 1 ∧
        ¬ ((leaving.advance 0).advance 1).HasEnded 2 := by
  have hspawning : (({} : Stage).after sampleSpawning).IsSpawning 0 "dn1" :=
    ⟨by decide +kernel, "first", _, [], "inner", _, [], rfl, rfl⟩
  refine ⟨hspawning, ?_⟩
  intro leaving
  have hleaving : leaving.IsLeaving 0 1 "dn1" := ⟨"first", _, [], _, [], rfl, rfl, rfl, by decide +kernel⟩
  have hgoing : ¬ leaving.HasEnded 2 := by
    rintro ⟨stand, hstand, hsettled⟩
    obtain rfl : Stand.running = stand := Option.some.inj hstand
    exact hsettled
  obtain ⟨-, -, hbegun, hnot⟩ := ((spawned_beside_next hspawning).2 [.go 2, .go 0]).2 hgoing |>.2 1 hleaving
  exact ⟨hleaving, hbegun, hnot⟩

end Stage

end ClusterMembership
