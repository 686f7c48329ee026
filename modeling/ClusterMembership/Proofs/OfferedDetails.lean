import ClusterMembership.Proofs.PortRules
import ClusterMembership.Proofs.RefusedRegistration

/-!
# Details of any shape

Validation and what comes after it do not agree on every value that is offered as details.  Validation lets ports be
left out, but bringing details into their kept form takes a list of ports; and the refusal of flawed details is logged
under their identity, which nothing at all does not have.  Validation itself fails when it has to quote the name of a
port and the name has no text.  In these cases a registration fails with an error of the language instead of an answer
or a refusal.  For all other values validation decides.
-/

namespace ClusterMembership

namespace Value

def ListsPorts (given : Value) : Prop := ∃ ports, given.member "ports" = some (.list ports)

/-- Whether the first port that breaks a rule has an unknown name without a text. -/
def HidesPortName (given : Value) : Prop :=
  ∃ ports index port name, given.member "ports" = some (.list ports) ∧ PortRule.IsFirstBreak ports index port .named ∧
    port.member "name" = some name ∧ name.Textless

/-- Only an object is without flaws. -/
theorem exists_object_of_check_eq_nil {given : Value} (h : Validation.check (some given) = .ok []) :
    ∃ details : Details, given = details.toValue := by
  cases given with
  | object members => exact ⟨⟨members⟩, rfl⟩
  | _ => simp [Validation.check] at h

theorem exists_check_null : ∃ flaw, Validation.check (some .null) = .ok [flaw] := ⟨_, rfl⟩

end Value

namespace Validation

/-- The check of ports fails only on a list, and there only when it has to quote a name without a text. -/
theorem checkPorts_member_eq_error_iff (given : Value) (failure : Failure) :
    checkPorts (given.member "ports") = .error failure ↔ given.HidesPortName ∧ failure = noText := by
  unfold Value.HidesPortName
  cases hports : given.member "ports" with
  | none => simp [checkPorts]
  | some value =>
    cases value with
    | list ports => simp [checkPorts_eq_error_iff]
    | _ => simp [checkPorts]

theorem check_eq_error_iff (given : Value) (failure : Failure) :
    check (some given) = .error failure ↔ given.HidesPortName ∧ failure = noText := by
  rw [← checkPorts_member_eq_error_iff]
  cases given with
  | object members =>
    simp only [check, Value.member]
    cases checkPorts (Members.get members "ports") <;> simp [Except.map]
  | _ => simp [check, checkPorts, Value.member]

end Validation

/-- Where validation finds nothing wrong, either a list of ports is copied or the ports cannot be read. -/
theorem Details.exists_normalize_misshapen {details : Details} (h : ¬ ∃ ports, details.ports = some (.list ports)) :
    ∃ message, details.normalize = .error (.misshapen message) := by
  unfold normalize copyPorts
  split
  · next ports hports => exact absurd ⟨ports, hports⟩ h
  all_goals exact ⟨_, rfl⟩

namespace Manager

variable {manager : Manager} {given : Value}

/-! ## Screening -/

/-- Flaws as a failure of a registration. -/
def invalid (flaws : List Flaw) : Failure := .service (.fieldsWrong (flaws.map Flaw.problem))

theorem name_invalid (flaws : List Flaw) : (invalid flaws).name = "ValidationError" := rfl

theorem exists_screen_invalid (manager : Manager) {flaws : List Flaw}
    (hfound : Validation.check (some given) = .ok flaws) (hflaws : flaws ≠ []) (hnull : given ≠ .null) :
    ∃ entries, manager.screen (some given) = (manager.relog entries, .error (invalid flaws)) := by
  have hdetails : ∃ details, Details.ofField (some given) = .ok details := by
    cases given with
    | null => exact absurd rfl hnull
    | _ => exact ⟨_, rfl⟩
  obtain ⟨details, hdetails⟩ := hdetails
  unfold screen invalid
  cases flaws with
  | nil => exact absurd rfl hflaws
  | cons first rest =>
    simp only [hfound, hdetails]
    exact ⟨_, rfl⟩

theorem exists_screen_misshapen (manager : Manager)
    (h : given = .null ∨ (Validation.check (some given) = .ok [] ∧ ¬ given.ListsPorts) ∨
      ∃ failure, Validation.check (some given) = .error failure) :
    ∃ message, manager.screen (some given) = (manager, .error (.misshapen message)) := by
  obtain rfl | ⟨hflaws, hports⟩ | ⟨failure, hfailed⟩ := h
  · exact ⟨_, rfl⟩
  · obtain ⟨details, rfl⟩ := Value.exists_object_of_check_eq_nil hflaws
    obtain ⟨message, hmessage⟩ := Details.exists_normalize_misshapen hports
    have hread : Details.ofField (some details.toValue) = .ok details := rfl
    unfold screen
    rw [hflaws, hread]
    exact ⟨message, congrArg (Prod.mk manager) hmessage⟩
  · obtain ⟨-, rfl⟩ := (Validation.check_eq_error_iff given failure).mp hfailed
    unfold screen
    rw [hfailed]
    exact ⟨_, rfl⟩

end Manager

namespace World

variable {world : World} {given : Value}

/-! ## Registrations -/

/-- Without a table, details that are free of flaws and list their ports are answered. -/
theorem exists_serve_register_acknowledged (hsound : world.manager.Sound) (htable : world.manager.table = none)
    (hflaws : Validation.check (some given) = .ok []) (hports : given.ListsPorts) (pipelineReport : Field)
    (layout : Option LayoutReport) :
    ∃ acknowledgement, (world.serve (.register (some given) none pipelineReport layout)).2 =
      .ok (.acknowledged acknowledgement) := by
  obtain ⟨details, rfl⟩ := Value.exists_object_of_check_eq_nil hflaws
  have hadmissible : details.Admissible := ⟨hflaws, hports⟩
  by_cases hfits : world.manager.topology.Fits details.id details.located.location
  · obtain ⟨acknowledgement, hanswer, -⟩ | ⟨failure, -, ⟨-, number, cause, hused, -⟩ | ⟨report, hreport, -⟩⟩ :=
      serve_register_of_fits hsound hadmissible hfits none pipelineReport layout
    · exact ⟨acknowledgement, hanswer⟩
    · rw [htable] at hused
      cases hused
    · cases hreport
  · obtain ⟨after, acknowledgement, hserved, -⟩ := serve_register_of_collides hsound hadmissible
      (Manager.collides_of_not_fits hadmissible hfits) none pipelineReport layout
    exact ⟨acknowledgement, congrArg Prod.snd hserved⟩

/-- At every moment of a run without a table, a registration with any value for details and without a node report
ends in one of three ways.  It fails with a validation error that lists what validation has found, and only the log
changes, exactly when validation finds something wrong and the value is not nothing at all.  It is answered exactly
when validation finds nothing wrong and the ports are listed.  And it fails because a value lacks the shape that is
relied on, and nothing changes, exactly when the value is nothing at all, or the only thing it lacks is a list of
ports, or validation itself fails; and this it does exactly when the first port that breaks a rule has an unknown
name without a text. -/
theorem registration_decided_by_shape_after {start : World} (hempty : start.manager.HasEmptyMemory) (moves : List Move)
    (htable : (start.after moves).manager.table = none) (given : Value) (pipelineReport : Field)
    (layout : Option LayoutReport) :
    let world := start.after moves
    let served := world.serve (.register (some given) none pipelineReport layout)
    let found := Validation.check (some given)
    (∀ flaws, (Manager.invalid flaws).name = "ValidationError") ∧
    ((∃ flaws entries, found = .ok flaws ∧ served = (world.relog entries, .error (Manager.invalid flaws))) ↔
      (∃ flaws, found = .ok flaws ∧ flaws ≠ []) ∧ given ≠ .null) ∧
    ((∃ acknowledgement, served.2 = .ok (.acknowledged acknowledgement)) ↔ found = .ok [] ∧ given.ListsPorts) ∧
    ((∃ message, served = (world, .error (.misshapen message))) ↔
      given = .null ∨ (found = .ok [] ∧ ¬ given.ListsPorts) ∨ ∃ failure, found = .error failure) ∧
    ((∃ failure, found = .error failure) ↔ given.HidesPortName) := by
  intro world served found
  have hsound : world.manager.Sound := sound_after hempty.sound moves
  have hinvalid {flaws : List Flaw} (hfound : found = .ok flaws) (hflaws : flaws ≠ []) (hnull : given ≠ .null) :
      ∃ entries, served = (world.relog entries, .error (Manager.invalid flaws)) := by
    obtain ⟨entries, hscreen⟩ := world.manager.exists_screen_invalid hfound hflaws hnull
    exact ⟨entries, serve_register_refused hscreen none pipelineReport layout⟩
  have hanswered (hflaws : found = .ok []) (hports : given.ListsPorts) :=
    exists_serve_register_acknowledged hsound htable hflaws hports pipelineReport layout
  have hmisshapen (h : given = .null ∨ (found = .ok [] ∧ ¬ given.ListsPorts) ∨ ∃ failure, found = .error failure) :
      ∃ message, served = (world, .error (.misshapen message)) := by
    obtain ⟨message, hscreen⟩ := world.manager.exists_screen_misshapen h
    exact ⟨message, serve_register_refused hscreen none pipelineReport layout⟩
  have hhides : (∃ failure, found = .error failure) ↔ given.HidesPortName := by
    simp [found, Validation.check_eq_error_iff]
  refine ⟨Manager.name_invalid, ?_⟩
  rw [← hhides]
  -- The three endings exclude each other, so that each tells what the value is like.
  by_cases hnull : given = .null
  · obtain ⟨flaw, hfound⟩ := Value.exists_check_null
    obtain ⟨message, hserved⟩ := hmisshapen (.inl hnull)
    subst hnull
    simp [hserved, found, hfound, Manager.invalid]
  cases hfound : found with
  | error failure =>
    obtain ⟨message, hserved⟩ := hmisshapen (.inr (.inr ⟨failure, hfound⟩))
    simp [hserved, Manager.invalid]
  | ok flaws =>
    by_cases hflaws : flaws = []
    · subst hflaws
      by_cases hports : given.ListsPorts
      · obtain ⟨acknowledgement, hanswer⟩ := hanswered hfound hports
        have hserved : served.2 = .ok (.acknowledged acknowledgement) := hanswer
        have hother (after : World) (failure : Failure) : served ≠ (after, .error failure) := by
          intro hfailed
          rw [hfailed] at hserved
          cases hserved
        simp [hserved, hother, hports, hnull]
      · obtain ⟨message, hserved⟩ := hmisshapen (.inr (.inl ⟨hfound, hports⟩))
        simp [hserved, hports, hnull, Manager.invalid]
    · obtain ⟨entries, hserved⟩ := hinvalid hfound hflaws hnull
      simp [hserved, hflaws, hnull, Manager.invalid]

/-- Nothing at all and details without ports make a registration fail, though validation refuses the one and has
nothing against the other, and so does a port name that validation cannot quote; a number is refused, and details with
an empty list of ports are registered. -/
theorem registration_decided_by_shape_of_portless :
    let start : World := ⟨Service.make { table := none, clock := 0 } .default, []⟩
    let listed := Details.sample "/rack1"
    let portless : Details := ⟨Association.without "ports" listed.members⟩
    let hidden : Details := ⟨Members.set listed.members "ports"
      (.list [.object [("name", .object [("toString", .number 1)]), ("value", .number 9858)]])⟩
    let served (given : Value) := start.serve (.register (some given) none none none)
    (start.manager.HasEmptyMemory ∧ start.manager.table = none) ∧
      (∃ flaw, Validation.check (some .null) = .ok [flaw]) ∧ Validation.check (some portless.toValue) = .ok [] ∧
      (∃ failure, Validation.check (some hidden.toValue) = .error failure) ∧
      (∀ given ∈ [.null, portless.toValue, hidden.toValue],
        ∃ message, served given = (start, .error (.misshapen message))) ∧
      (∃ flaws entries, served (.number 5) = (start.relog entries, .error (Manager.invalid flaws))) ∧
      ∃ acknowledgement, (served listed.toValue).2 = .ok (.acknowledged acknowledgement) := by
  intro start listed portless hidden served
  have hempty : start.manager.HasEmptyMemory := Service.hasEmptyMemory_make _ _
  have hdecided (given : Value) := (registration_decided_by_shape_after hempty [] rfl given none none).2
  have hportless : Validation.check (some portless.toValue) = .ok [] := by decide +kernel
  have hunlisted : ¬ portless.toValue.ListsPorts := by
    have hports : portless.toValue.member "ports" = none := by decide +kernel
    rintro ⟨ports, hlisted⟩
    rw [hports] at hlisted
    cases hlisted
  have hhidden : ∃ failure, Validation.check (some hidden.toValue) = .error failure :=
    ⟨Validation.noText, by decide +kernel⟩
  refine ⟨⟨hempty, rfl⟩, Value.exists_check_null, hportless, hhidden, ?_, ?_, ?_⟩
  · simp only [List.forall_mem_cons, List.not_mem_nil, false_implies, implies_true, and_true]
    exact ⟨(hdecided .null).2.2.1.mpr (.inl rfl),
      (hdecided portless.toValue).2.2.1.mpr (.inr (.inl ⟨hportless, hunlisted⟩)),
      (hdecided hidden.toValue).2.2.1.mpr (.inr (.inr hhidden))⟩
  · obtain ⟨flaws, entries, -, hserved⟩ := (hdecided (.number 5)).1.mpr ⟨⟨_, rfl, by simp⟩, nofun⟩
    exact ⟨flaws, entries, hserved⟩
  · exact (hdecided listed.toValue).2.1.mpr ⟨by decide +kernel, [], rfl⟩

end World

end ClusterMembership
