import ClusterMembership.Proofs.Locality
import ClusterMembership.Proofs.Paging
import ClusterMembership.Proofs.Rollback

/-!
# Calls about different datanodes

A call about one datanode leaves what is held of the others alone, and it sees nothing of them but the depth of the
topology.  So two calls about different datanodes do not mind which of them comes first, unless each of them places
or removes its datanode and there is no third one that fixes the depth.
-/

namespace ClusterMembership

/-! ## Rows of one datanode -/

namespace Association

variable {α : Type} {key other : String}

/-- The pairs under a key. -/
def under (key : String) (entries : List (String × α)) : List (String × α) :=
  entries.filter fun entry ↦ entry.1 = key

theorem under_put (key : String) (value : α) (entries : List (String × α)) :
    under key (put key value entries) = put key value (under key entries) := by
  induction entries with
  | nil => simp [under, put]
  | cons entry rest ih =>
    by_cases hkey : entry.1 = key
    · simp [under, put, hkey]
    · simpa [under, put, hkey] using ih

theorem under_without_self (key : String) (entries : List (String × α)) : under key (without key entries) = [] := by
  simp [under, without]

/-- The pairs under a key are there as long as those under another one are left out. -/
theorem under_of_without (hother : key ≠ other) {entries entries' : List (String × α)}
    (h : without other entries' = without other entries) : under key entries' = under key entries := by
  have hkept (entries : List (String × α)) : under key (without other entries) = under key entries := by
    unfold under without
    rw [List.filter_filter]
    refine List.filter_congr fun entry _ ↦ ?_
    by_cases hkey : entry.1 = key
    · simp [hkey, hother]
    · simp [hkey]
  rw [← hkept entries', h, hkept]

end Association

namespace TableStore

variable {store other : TableStore} {id : String}

/-- Two tables of one kind that hold the same rows of a datanode. -/
structure AlikeAt (id : String) (store other : TableStore) : Prop where
  reading : other.detailsOf = store.detailsOf
  rows : Association.under id other.rows = Association.under id store.rows

protected theorem AlikeAt.refl (id : String) (store : TableStore) : AlikeAt id store store := ⟨rfl, rfl⟩

def written : TableStore → Instant → String → Details → Field
  | memory _, _, _, details => some details.toValue
  | hosted _, now, id, details => some (HostedTable.rowOf now id (some details.toValue))

/-- What is read alike is written alike: a table in memory is not read like a hosted one. -/
theorem written_of_reading (h : other.detailsOf = store.detailsOf) : other.written = store.written := by
  cases store <;> cases other
  · rfl
  · cases congrFun h (some .null)
  · cases congrFun h (some .null)
  · rfl

/-- Details are written to a table that answers from its rows. -/
theorem carryOut_put (hanswers : store.AnswersFromRows) (now : Instant) (id : String) (details : Details) :
    ∃ after : TableStore, Table.carryOut store now (.put id details) = (after, none, .ok none) ∧
      after.rows = Association.put id (store.written now id details) store.rows := by
  cases store with
  | memory table => exact ⟨_, rfl, rfl⟩
  | hosted table =>
    simp only [Table.carryOut, HostedTable.put_of_nil hanswers]
    exact ⟨_, rfl, Database.map_entry_store _ _⟩

/-- A row is deleted from a table that answers from its rows. -/
theorem carryOut_delete (hanswers : store.AnswersFromRows) (now : Instant) (id : String) :
    ∃ after : TableStore, Table.carryOut store now (.delete id) = (after, none, .ok none) ∧
      after.rows = Association.without id store.rows := by
  cases store with
  | memory table => exact ⟨_, rfl, rfl⟩
  | hosted table =>
    simp only [Table.carryOut, HostedTable.delete_of_nil hanswers]
    exact ⟨_, rfl, Database.map_entry_filter _ _⟩

/-- A request for a datanode is carried out on both tables, and makes the rows of the datanode the same. -/
theorem AlikeAt.carryOut (h : AlikeAt id store other) (hanswers : store.AnswersFromRows)
    (hanswers' : other.AnswersFromRows) {request : TableRequest} (hfor : request.IsFor id) (now : Instant) :
    ∃ after after', Table.carryOut store now request = (after, none, .ok none) ∧
      Table.carryOut other now request = (after', none, .ok none) ∧ AlikeAt id after after' := by
  have hreading (after after' : TableStore) (hafter : Table.carryOut store now request = (after, none, .ok none))
      (hafter' : Table.carryOut other now request = (after', none, .ok none)) : after'.detailsOf = after.detailsOf := by
    have hstore := (store.serves_carryOut now request).reading
    have hother := (other.serves_carryOut now request).reading
    rw [hafter] at hstore
    rw [hafter'] at hother
    exact hother.trans (h.reading.trans hstore.symm)
  cases request with
  | put id details =>
    obtain rfl := hfor
    obtain ⟨after, hafter, hrows⟩ := carryOut_put hanswers now id details
    obtain ⟨after', hafter', hrows'⟩ := carryOut_put hanswers' now id details
    refine ⟨after, after', hafter, hafter', hreading after after' hafter hafter', ?_⟩
    rw [hrows, hrows', Association.under_put, Association.under_put, h.rows, written_of_reading h.reading]
  | delete id =>
    obtain rfl := hfor
    obtain ⟨after, hafter, hrows⟩ := carryOut_delete hanswers now id
    obtain ⟨after', hafter', hrows'⟩ := carryOut_delete hanswers' now id
    refine ⟨after, after', hafter, hafter', hreading after after' hafter hafter', ?_⟩
    rw [hrows, hrows', Association.under_without_self, Association.under_without_self]
  | next iterator | close iterator => exact hfor.elim

end TableStore

/-! ## What a change of an operational state asks -/

/-- What was started has ended, or asks a table about a datanode. -/
def Progress.Asks {rest : Type} (table : Option Nat) (id : String) : Progress rest → Prop
  | .ended _ => True
  | .asking number request _ => table = some number ∧ request.IsFor id

namespace Manager

variable (manager : Manager) (id : String) (state expiry : Field)

theorem asks_beginStateChange (reply : Reply) :
    (manager.beginStateChange id state expiry reply).2.Asks manager.table id := by
  unfold beginStateChange
  split
  · trivial
  · simp only
    split
    · trivial
    · next table htable => exact ⟨htable, rfl⟩

theorem asks_beginReconcile : (Service.beginReconcile manager id state expiry).2.Asks manager.table id := by
  unfold Service.beginReconcile
  split
  · trivial
  · split
    · trivial
    · exact asks_beginStateChange _ id state expiry _

end Manager

def Call.Places : Call → Prop
  | .operate (.register _ _ _ _) | .operate (.remove _) => True
  | _ => False

namespace World

variable {world other : World} {surroundings : Surroundings} {id : String} {number : Nat}

/-- The table with a number fails no call and answers from its rows. -/
def IsFaultless (world : World) (number : Nat) : Prop :=
  ∀ table, world.tables[number]? = some table → table.faults = [] ∧ table.store.AnswersFromRows

/-- A world in which what the table with a number is kept in is another, and no fault is left. -/
def setStore (world : World) (number : Nat) (store : TableStore) : World :=
  { world with tables := world.tables.set number (.ofStore store) }

theorem ask_of_faultless {table : Table} (htable : world.tables[number]? = some table) (hfaults : table.faults = [])
    {request : TableRequest} {after : TableStore}
    (hcarried : Table.carryOut table.store world.clock request = (after, none, .ok none)) :
    world.ask number request = (world.setStore number after, .ok none) := by
  unfold ask
  rw [htable]
  simp only [Table.perform, hfaults, Table.takeFault, hcarried]
  rfl

theorem getElem?_setStore (world : World) (number : Nat) (after : TableStore) :
    (world.setStore number after).tables[number]? = (world.tables[number]?).map fun _ ↦ .ofStore after :=
  List.getElem?_set_self'

theorem isFaultless_setStore {after : TableStore} (hanswers : after.AnswersFromRows) :
    (world.setStore number after).IsFaultless number := by
  intro table htable
  rw [getElem?_setStore] at htable
  obtain ⟨-, -, rfl⟩ := Option.map_eq_some_iff.mp htable
  exact ⟨rfl, hanswers⟩

/-- Two worlds with the same surroundings that hold the same of a datanode, in memory and in the tables.  The table in
use is faultless in both. -/
structure AlikeAt (surroundings : Surroundings) (id : String) (world other : World) : Prop where
  manager : Manager.AlikeAt surroundings id world.manager other.manager
  primary : world.service.IsPrimary
  primary' : other.service.IsPrimary
  stores : ∀ number, Option.Rel (TableStore.AlikeAt id) (world.store? number) (other.store? number)
  faultless : ∀ {number}, surroundings.settings.table = some number → world.IsFaultless number
  faultless' : ∀ {number}, surroundings.settings.table = some number → other.IsFaultless number

/-- Two calls that were answered alike and left worlds that are alike at a datanode. -/
structure ServedAlikeAt (surroundings : Surroundings) (id : String) (served served' : World × Outcome) : Prop where
  worlds : AlikeAt surroundings id served.1 served'.1
  outcome : served'.2 = served.2

namespace AlikeAt

protected theorem refl (hkeyed : world.manager.Keyed) (hprimary : world.service.IsPrimary)
    (hfaultless : ∀ {number}, world.manager.table = some number → world.IsFaultless number) (id : String) :
    AlikeAt world.manager.surroundings id world world where
  manager := .refl hkeyed id
  primary := hprimary
  primary' := hprimary
  stores number := by
    cases world.store? number with
    | none => exact .none
    | some store => exact .some (.refl id store)
  faultless := hfaultless
  faultless' := hfaultless

section Parts

variable (h : AlikeAt surroundings id world other)
include h

theorem clock : other.clock = world.clock := h.manager.clock

theorem withManager {manager manager' : Manager} (hmanager : Manager.AlikeAt surroundings id manager manager') :
    AlikeAt surroundings id (world.withManager manager) (other.withManager manager') :=
  { h with manager := hmanager }

theorem rows (number : Nat) :
    Association.under id (other.rowsOf number) = Association.under id (world.rowsOf number) := by
  have hstores := h.stores number
  unfold rowsOf
  generalize world.store? number = store, other.store? number = store' at hstores
  cases hstores with
  | none => rfl
  | some hstore => exact hstore.rows

theorem setStore {after after' : TableStore} (hstore : TableStore.AlikeAt id after after')
    (hanswers : after.AnswersFromRows) (hanswers' : after'.AnswersFromRows)
    (hnumber : surroundings.settings.table = some number) :
    AlikeAt surroundings id (world.setStore number after) (other.setStore number after') where
  manager := h.manager
  primary := h.primary
  primary' := h.primary'
  stores reached := by
    by_cases hsame : number = reached
    · subst hsame
      have hstores := h.stores number
      unfold store? at hstores ⊢
      rw [getElem?_setStore, getElem?_setStore]
      simp only [Option.map_map]
      generalize world.tables[number]? = table, other.tables[number]? = table' at hstores
      cases table <;> cases table' <;> cases hstores
      · exact .none
      · exact .some hstore
    · have hkept (world : World) (after : TableStore) :
          (world.setStore number after).store? reached = world.store? reached :=
        congrArg (Option.map Table.store) (List.getElem?_set_ne hsame)
      rw [hkept, hkept]
      exact h.stores reached
  faultless hused := by
    obtain rfl := Option.some.inj (hnumber.symm.trans hused)
    exact isFaultless_setStore hanswers
  faultless' hused := by
    obtain rfl := Option.some.inj (hnumber.symm.trans hused)
    exact isFaultless_setStore hanswers'

/-- A request for a datanode is carried out in both worlds. -/
theorem ask (hnumber : surroundings.settings.table = some number) {request : TableRequest} (hfor : request.IsFor id) :
    ∃ asked asked', world.ask number request = (asked, .ok none) ∧ other.ask number request = (asked', .ok none) ∧
      AlikeAt surroundings id asked asked' := by
  have hstores := h.stores number
  generalize hstore : world.store? number = store, hstore' : other.store? number = store' at hstores
  cases hstores with
  | none => exact ⟨world, other, ask_of_absent hstore request, ask_of_absent hstore' request, h⟩
  | some halike =>
    obtain ⟨table, htable, rfl⟩ := Option.map_eq_some_iff.mp hstore
    obtain ⟨table', htable', rfl⟩ := Option.map_eq_some_iff.mp hstore'
    obtain ⟨hfaults, hanswers⟩ := h.faultless hnumber table htable
    obtain ⟨hfaults', hanswers'⟩ := h.faultless' hnumber table' htable'
    obtain ⟨after, after', hafter, hafter', hwritten⟩ := halike.carryOut hanswers hanswers' hfor world.clock
    have hstill := (table.store.serves_carryOut world.clock request).answers hanswers
    have hstill' := (table'.store.serves_carryOut world.clock request).answers hanswers'
    rw [hafter] at hstill
    rw [hafter'] at hstill'
    exact ⟨_, _, ask_of_faultless htable hfaults hafter, ask_of_faultless htable' hfaults' (h.clock ▸ hafter'),
      h.setStore hwritten hstill hstill' hnumber⟩

end Parts

/-! ## Operations -/

section Operations

variable (h : AlikeAt surroundings id world other)
include h

theorem run_register (hsound : world.manager.Sound) (hsound' : other.manager.Sound)
    (htakes : world.manager.topology.TakesAlike other.manager.topology id) {request : RegistrationRequest}
    (hid : request.details.id = id) :
    ServedAlikeAt surroundings id (world.run (.register request)) (other.run (.register request)) := by
  obtain ⟨hplaced, hrefused⟩ := h.manager.placing hsound hsound' htakes hid
  generalize hplacing : world.manager.placing request = placing,
    hplacing' : other.manager.placing request = placing' at hplaced hrefused
  obtain ⟨inPlace, refusal⟩ := placing
  obtain ⟨inPlace', refusal'⟩ := placing'
  cases refusal with
  | some refusal =>
    obtain ⟨refusal', rfl⟩ := Option.ne_none_iff_exists'.mp ((not_congr hrefused).mpr nofun)
    rw [run_register_refused hplacing, run_register_refused hplacing']
    obtain ⟨hsettled, hanswer⟩ := hplaced.refuse request.details refusal refusal'
    exact ⟨h.withManager hsettled, congrArg (Except.ok ∘ Reply.acknowledged) hanswer⟩
  | none =>
    obtain rfl : refusal' = none := hrefused.mpr rfl
    have hkept := h.manager.placedBy hplaced hid
    have hown : (world.manager.placedBy inPlace request).request.details.id = id := hid
    cases hwrite : (if request.persist then inPlace.table else none) with
    | none =>
      rw [run_register_unwritten hplacing hwrite, run_register_unwritten hplacing' (hplaced.table ▸ hwrite), hkept]
      obtain ⟨hsettled, hanswer⟩ := hplaced.completeRegistration hown
      exact ⟨h.withManager hsettled, congrArg (Except.map Reply.acknowledged) hanswer⟩
    | some table =>
      have hinUse : surroundings.settings.table = some table := by
        rw [← hplaced.here]
        split at hwrite
        · exact hwrite
        · cases hwrite
      have hfor : (TableRequest.put request.details.id (world.manager.placedBy inPlace request).stored).IsFor id := hid
      obtain ⟨asked, asked', hasked, hasked', halike⟩ := (h.withManager hplaced).ask hinUse hfor
      have hasked'' : other.askedToPut inPlace' table request = (asked', .ok none) := by
        unfold askedToPut
        rw [hkept]
        exact hasked'
      rw [run_register_written hplacing hwrite hasked, run_register_written hplacing' (hplaced.table ▸ hwrite) hasked'',
        hkept]
      obtain ⟨hsettled, hanswer⟩ := halike.manager.markSynced.completeRegistration hown
      subst hid
      exact ⟨halike.withManager hsettled, congrArg (Except.map Reply.acknowledged) hanswer⟩

theorem run_heartbeat {details : Details} (hid : details.id = id) (report : HeartbeatReport) (issuedAt : Instant) :
    ServedAlikeAt surroundings id (world.run (.heartbeat details report issuedAt))
      (other.run (.heartbeat details report issuedAt)) := by
  rw [World.run_heartbeat, World.run_heartbeat, h.primary.heartbeat_eq, h.primary'.heartbeat_eq]
  obtain ⟨hheard, hanswer⟩ := h.manager.heartbeat hid report issuedAt
  exact ⟨h.withManager hheard, congrArg (Except.map Reply.commands) hanswer⟩

/-- Both worlds forget the datanode. -/
theorem afterRemoval :
    AlikeAt surroundings id
      { world with service := (world.service.withManager (world.manager.forget id)).afterRemoval id (.ok .nothing) }
      { other with service := (other.service.withManager (other.manager.forget id)).afterRemoval id (.ok .nothing) } :=
  { h.withManager h.manager.forget with
    primary := (h.withManager h.manager.forget).primary.afterRemoval id _
    primary' := (h.withManager h.manager.forget).primary'.afterRemoval id _ }

theorem run_remove : ServedAlikeAt surroundings id (world.run (.remove id)) (other.run (.remove id)) := by
  have hcontains := h.manager.contains
  cases hregistered : world.manager.registry.contains id with
  | false =>
    rw [run_remove_of_absent hregistered, run_remove_of_absent (hcontains.trans hregistered)]
    exact ⟨h, rfl⟩
  | true =>
    have htables := h.manager.table
    cases htable : world.manager.table with
    | none =>
      rw [run_remove_unwritten hregistered htable,
        run_remove_unwritten (hcontains.trans hregistered) (htables.trans htable)]
      exact ⟨h.afterRemoval, rfl⟩
    | some table =>
      have hinUse : surroundings.settings.table = some table := h.manager.here ▸ htable
      have hfor : (TableRequest.delete id).IsFor id := rfl
      obtain ⟨asked, asked', hasked, hasked', halike⟩ := h.ask hinUse hfor
      rw [run_remove_written hregistered htable hasked,
        run_remove_written (hcontains.trans hregistered) (htables.trans htable) hasked']
      exact ⟨halike.afterRemoval, rfl⟩

/-- A change of an operational state that was started alike ends alike. -/
theorem runStateChange {begun begun' : Manager × Progress Reply}
    (hbegun : Manager.AlikeAt surroundings id begun.1 begun'.1) (hprogress : begun'.2 = begun.2)
    (hasks : begun.2.Asks surroundings.settings.table id) :
    ServedAlikeAt surroundings id (world.runStateChange id begun) (other.runStateChange id begun') := by
  obtain ⟨waiting, progress⟩ := begun
  obtain ⟨waiting', progress'⟩ := begun'
  obtain rfl : progress' = progress := hprogress
  cases progress' with
  | ended outcome => exact ⟨h.withManager hbegun, rfl⟩
  | asking table request reply =>
    obtain ⟨hinUse, hfor⟩ := hasks
    obtain ⟨asked, asked', hasked, hasked', halike⟩ := (h.withManager hbegun).ask hinUse hfor
    unfold World.runStateChange
    simp only [hasked, hasked']
    exact ⟨halike.withManager halike.manager.markSynced, rfl⟩

theorem run_setState (state expiry : Field) :
    ServedAlikeAt surroundings id (world.run (.setState id state expiry)) (other.run (.setState id state expiry)) := by
  have hasks := world.manager.asks_beginStateChange id state expiry .nothing
  rw [World.run_setState, World.run_setState]
  obtain ⟨hbegun, hprogress⟩ := h.manager.beginStateChange state expiry .nothing
  exact h.runStateChange hbegun hprogress (h.manager.here ▸ hasks)

theorem run_reconcile (state expiry : Field) :
    ServedAlikeAt surroundings id (world.run (.reconcile id state expiry))
      (other.run (.reconcile id state expiry)) := by
  have hasks := world.manager.asks_beginReconcile id state expiry
  rw [World.run_reconcile, World.run_reconcile]
  obtain ⟨hbegun, hprogress⟩ := h.manager.beginReconcile state expiry
  exact h.runStateChange hbegun hprogress (h.manager.here ▸ hasks)

theorem serve_register (hsound : world.manager.Sound) (hsound' : other.manager.Sound)
    (htakes : world.manager.topology.TakesAlike other.manager.topology id) {offered : Field}
    (hid : ∀ details, Details.ofField offered = .ok details → details.id = id) (nodeReport : Option NodeReport)
    (pipelineReport : Field) (layout : Option LayoutReport) :
    ServedAlikeAt surroundings id (world.serve (.register offered nodeReport pipelineReport layout))
      (other.serve (.register offered nodeReport pipelineReport layout)) := by
  obtain ⟨hscreened, hanswer⟩ := h.manager.screen offered
  generalize hscreen : world.manager.screen offered = screened,
    hscreen' : other.manager.screen offered = screened' at hscreened hanswer
  obtain ⟨kept, admitted⟩ := screened
  obtain ⟨kept', admitted'⟩ := screened'
  obtain rfl : admitted' = admitted := hanswer
  cases admitted' with
  | error failure =>
    rw [serve_register_refused hscreen, serve_register_refused hscreen']
    exact ⟨h.withManager hscreened, rfl⟩
  | ok details =>
    obtain ⟨rfl, -⟩ := Manager.kept_of_screen hscreen
    obtain ⟨rfl, -⟩ := Manager.kept_of_screen hscreen'
    obtain ⟨given, hgiven, hsame⟩ := Manager.exists_offered_of_screen hscreen
    rw [serve_register_admitted hscreen, serve_register_admitted hscreen']
    exact h.run_register hsound hsound' htakes (hsame.symm.trans (hid given hgiven))

theorem serve_heartbeat {offered : Field} (hid : ∀ details, Details.ofField offered = .ok details → details.id = id)
    (report : HeartbeatReport) :
    ServedAlikeAt surroundings id (world.serve (.heartbeat offered report))
      (other.serve (.heartbeat offered report)) := by
  cases hdetails : Details.ofField offered with
  | error failure =>
    rw [serve_heartbeat_refused hdetails, serve_heartbeat_refused hdetails]
    exact ⟨h, rfl⟩
  | ok details =>
    rw [serve_heartbeat_admitted hdetails, serve_heartbeat_admitted hdetails, h.clock]
    exact h.run_heartbeat (hid details hdetails) report world.clock

/-- A call about the datanode is answered alike in both worlds; a registration looks at the depth too. -/
theorem call (hsound : world.manager.Sound) (hsound' : other.manager.Sound) {call : Call} (habout : call.IsAbout id)
    (htakes : call.Places → world.manager.topology.TakesAlike other.manager.topology id) :
    ServedAlikeAt surroundings id (world.call call) (other.call call) := by
  cases call with
  | operate request =>
    cases request with
    | register offered nodeReport pipelineReport layout =>
      exact h.serve_register hsound hsound' (htakes trivial) habout _ _ _
    | heartbeat offered report => exact h.serve_heartbeat habout report
    | remove removed =>
      obtain rfl := habout
      exact h.run_remove
    | setState changed state expiry =>
      obtain rfl := habout
      exact h.run_setState state expiry
    | reconcile changed state expiry =>
      obtain rfl := habout
      exact h.run_reconcile state expiry
  | queue target command =>
    obtain rfl := habout
    have hadded := h.manager.addCommand command
    unfold World.call
    simp only
    generalize world.manager.addCommand target command = added, other.manager.addCommand target command = added'
      at hadded
    cases hadded with
    | failed failure => exact ⟨h, rfl⟩
    | ok hadded => exact ⟨h.withManager hadded, rfl⟩
  | take target command =>
    obtain rfl := habout
    unfold World.call
    simp only
    rw [h.primary.onCommand_eq, h.primary'.onCommand_eq]
    exact ⟨h.withManager (h.manager.onCommand command), rfl⟩
  | purge target =>
    obtain rfl := habout
    exact ⟨h.withManager h.manager.purgeCommands, congrArg (Except.ok ∘ Reply.count) h.manager.count_purgeCommands⟩
  | refreshUsage | sweep _ | load | switch _ => exact habout.elim

end Operations

end AlikeAt

/-! ## Calls about other datanodes -/

/-- A call about another datanode changes nothing at a datanode. -/
theorem alikeAt_call (hself : ∀ id, AlikeAt surroundings id world world) (hsound : world.manager.Sound) {call : Call}
    {aimed : String} (habout : call.IsAbout aimed) (hother : id ≠ aimed) :
    AlikeAt surroundings id world (world.call call).1 := by
  -- Run beside itself, the call shows that it leaves the surroundings and the table in use as good as they were.
  have hserved := (hself aimed).call hsound hsound habout fun _ ↦ .of_location? (fun _ ↦ rfl) aimed
  have hmove : (Move.call call).IsAbout aimed := habout
  have halike : world.AlikeBut aimed (world.call call).1 := alikeBut_move hsound hmove
  have hthere := hserved.worlds
  refine ⟨.of_holding (hself id).manager.here hthere.manager.here (hself id).manager.keyed
    (halike.manager.holding hother), (hself id).primary, hthere.primary, fun number ↦ ?_, (hself id).faultless,
    hthere.faultless⟩
  have hused := halike.used number
  generalize world.store? number = store, (world.call call).1.store? number = reached at hused
  cases hused with
  | none => exact .none
  | some hstore => exact .some ⟨hstore.reading, Association.under_of_without hother hstore.rows⟩

theorem location?_runStateChange (world : World) (changed : String) (state expiry : Field) (reply : Reply)
    (id : String) :
    (world.runStateChange changed
      (world.manager.beginStateChange changed state expiry reply)).1.manager.topology.location? id =
        world.manager.topology.location? id := by
  cases hrecord : world.manager.registry.get? changed with
  | none =>
    rw [Manager.beginStateChange_of_absent ((Registry.contains_eq_false_iff _ _).mpr hrecord)]
    rfl
  | some record =>
    obtain ⟨note, hbegin⟩ := Manager.exists_beginStateChange_eq hrecord state expiry reply
    rw [hbegin]
    unfold runStateChange
    cases htable : world.manager.table with
    | none => rfl
    | some table =>
      let waiting := world.withManager ((world.manager.restate changed state
        (Registry.expiryOrNever expiry) world.manager.clock).note note)
      let request : TableRequest :=
        .put changed (record.details.withOperational state (Registry.expiryOrNever expiry))
      obtain ⟨marks, trace, hsettled⟩ :=
        (waiting.ask table request).1.manager.exists_settleWrite_eq changed (waiting.ask table request).2
      have hkept := congrArg (fun topology ↦ topology.location? id) (waiting.alike_ask table request).topology
      exact (congrArg (fun manager ↦ manager.topology.location? id) hsettled).trans hkept

theorem location?_run_reconcile (world : World) (changed : String) (state expiry : Field) (id : String) :
    (world.run (.reconcile changed state expiry)).1.manager.topology.location? id =
      world.manager.topology.location? id := by
  rw [run_reconcile]
  obtain ⟨outcome, -, hbegin⟩ | ⟨noted, hlogged, hbegin⟩ := world.manager.beginReconcile_cases changed state expiry
  · rw [hbegin]
    rfl
  · rw [hbegin]
    have hkept := congrArg (fun topology ↦ topology.location? id) hlogged.alike.topology
    exact ((world.withManager noted).location?_runStateChange changed state expiry _ id).trans hkept

theorem location?_serve_heartbeat (hkeyed : world.manager.Keyed) (offered : Field) (report : HeartbeatReport)
    (id : String) :
    (world.serve (.heartbeat offered report)).1.manager.topology.location? id =
      world.manager.topology.location? id := by
  cases hdetails : Details.ofField offered with
  | error failure => rw [serve_heartbeat_refused hdetails]
  | ok details =>
    rw [serve_heartbeat_admitted hdetails]
    obtain htended | ⟨-, reported, state, expiry, now, hreported, hrestated⟩ :=
      world.service.heartbeat_membership hkeyed details report world.clock
    · exact htended.placed id
    · exact (hrestated.placed id).trans (hreported.placed id)

/-- A call about a datanode that neither registers nor removes it leaves every datanode where it lies. -/
theorem location?_call (hkeyed : world.manager.Keyed) {call : Call} {aimed : String} (habout : call.IsAbout aimed)
    (hplaces : ¬ call.Places) (id : String) :
    (world.call call).1.manager.topology.location? id = world.manager.topology.location? id := by
  cases call with
  | operate request =>
    cases request with
    | register _ _ _ _ | remove _ => exact absurd trivial hplaces
    | heartbeat offered report => exact location?_serve_heartbeat hkeyed offered report id
    | setState changed state expiry =>
      have hset := world.location?_runStateChange changed state expiry .nothing id
      rwa [← run_setState, ← serve_setState] at hset
    | reconcile changed state expiry => exact world.location?_run_reconcile changed state expiry id
  | queue target command => exact (world.tended_queue target command).placed id
  | take target command => exact (world.tended_take target command).placed id
  | purge target => exact (world.manager.tended_purgeCommands target).placed id
  | refreshUsage | sweep _ | load | switch _ => exact habout.elim

/-- Two worlds that hold the same of a datanode, in memory and in every table. -/
structure SameAt (world : World) (id : String) (other : World) : Prop where
  holding : other.manager.stores.holding id = world.manager.stores.holding id
  rows : ∀ number, Association.under id (other.rowsOf number) = Association.under id (world.rowsOf number)

namespace SameAt

variable {third : World}

protected theorem symm (h : world.SameAt id other) : other.SameAt id world :=
  ⟨h.holding.symm, fun number ↦ (h.rows number).symm⟩

protected theorem trans (h : world.SameAt id other) (hnext : other.SameAt id third) : world.SameAt id third :=
  ⟨hnext.holding.trans h.holding, fun number ↦ (hnext.rows number).trans (h.rows number)⟩

end SameAt

theorem AlikeAt.sameAt (h : AlikeAt surroundings id world other) : world.SameAt id other := ⟨h.manager.holding, h.rows⟩

theorem sameAt_call (hsound : world.manager.Sound) {call : Call} {aimed : String} (habout : call.IsAbout aimed)
    (hother : id ≠ aimed) : world.SameAt id (world.call call).1 := by
  have hmove : (Move.call call).IsAbout aimed := habout
  have halike : world.AlikeBut aimed (world.call call).1 := alikeBut_move hsound hmove
  exact ⟨halike.manager.holding hother, fun number ↦ Association.under_of_without hother (halike.rows number)⟩

/-! ## Either order -/

/-- Two calls of which either may come first: each is answered as if the other one had not been made, and in both
orders the stores and the tables come to hold the same of every datanode. -/
structure Commute (world : World) (first second : Call) : Prop where
  repliesFirst : ((world.call second).1.call first).2 = (world.call first).2
  repliesSecond : ((world.call first).1.call second).2 = (world.call second).2
  same : ∀ id, ((world.call first).1.call second).1.SameAt id ((world.call second).1.call first).1

/-- A call about another datanode leaves the topology as one that takes the datanode at the same locations, unless it
places or removes its own where no third one is placed. -/
theorem takesAlike_call (hself : ∀ id, AlikeAt surroundings id world world) (hsound : world.manager.Sound)
    {call : Call} {aimed : String} (habout : call.IsAbout aimed)
    (hdepth : ¬ call.Places ∨ ∃ third, third ≠ id ∧ third ≠ aimed ∧ world.manager.topology.contains third = true) :
    world.manager.topology.TakesAlike (world.call call).1.manager.topology id := by
  obtain hplaces | ⟨third, hid, haimed, hplaced⟩ := hdepth
  · exact .of_location? (location?_call hsound.keyed habout hplaces) id
  · have hsame := (alikeAt_call hself hsound habout haimed).manager.location
    exact .of_third hsound.topology (sound_call hsound call).topology hid hplaced hsame

/-- A call is answered after a call about another datanode as it is answered before it. -/
theorem servedAlikeAt_call (hself : ∀ id, AlikeAt surroundings id world world) (hsound : world.manager.Sound)
    {made earlier : Call} {aimed : String} (habout : made.IsAbout id) (hearlier : earlier.IsAbout aimed)
    (hother : id ≠ aimed)
    (hdepth : ¬ (made.Places ∧ earlier.Places) ∨
      ∃ third, third ≠ id ∧ third ≠ aimed ∧ world.manager.topology.contains third = true) :
    ServedAlikeAt surroundings id (world.call made) ((world.call earlier).1.call made) := by
  have halike := alikeAt_call hself hsound hearlier hother
  refine halike.call hsound (sound_call hsound earlier) habout fun hplaces ↦ takesAlike_call hself hsound hearlier ?_
  exact hdepth.imp_left fun hnot hplaced ↦ hnot ⟨hplaces, hplaced⟩

/-- After every run of a primary over a table without faults, two calls about different datanodes commute when at most
one of them registers or removes its datanode, or a third datanode is placed. -/
theorem calls_commute_after {start : World} (hstart : start.manager.HasEmptyMemory) (hprimary : start.service.IsPrimary)
    (past : List Move)
    (hfaultless : ∀ {number}, (start.after past).manager.table = some number → (start.after past).IsFaultless number)
    {first second : Call} {id other : String} (hfirst : first.IsAbout id) (hsecond : second.IsAbout other)
    (hne : id ≠ other)
    (hdepth : ¬ (first.Places ∧ second.Places) ∨
      ∃ third, third ≠ id ∧ third ≠ other ∧ (start.after past).manager.topology.contains third = true) :
    (start.after past).Commute first second := by
  have hsound := sound_after hstart.sound past
  have hself := AlikeAt.refl hsound.keyed (isPrimary_after hprimary past) hfaultless
  generalize start.after past = world at *
  have hdepth' : ¬ (second.Places ∧ first.Places) ∨
      ∃ third, third ≠ other ∧ third ≠ id ∧ world.manager.topology.contains third = true :=
    hdepth.imp (fun hnot ⟨hthere, hhere⟩ ↦ hnot ⟨hhere, hthere⟩)
      fun ⟨third, hhere, hthere, hplaced⟩ ↦ ⟨third, hthere, hhere, hplaced⟩
  have hservedFirst := servedAlikeAt_call hself hsound hfirst hsecond hne hdepth
  have hservedSecond := servedAlikeAt_call hself hsound hsecond hfirst hne.symm hdepth'
  refine ⟨hservedFirst.outcome, hservedSecond.outcome, fun shown ↦ ?_⟩
  -- What a datanode is shown as is settled by the one call about it, if there is one.
  have hafterFirst := sound_call hsound first
  have hafterSecond := sound_call hsound second
  by_cases hshown : shown = id
  · subst hshown
    exact (sameAt_call hafterFirst hsecond hne).symm.trans hservedFirst.worlds.sameAt
  · have hlastFirst := sameAt_call hafterSecond hfirst hshown
    by_cases hshown' : shown = other
    · subst hshown'
      exact hservedSecond.worlds.sameAt.symm.trans hlastFirst
    · have hearlier := (sameAt_call hsound hfirst hshown).trans (sameAt_call hafterFirst hsecond hshown')
      exact hearlier.symm.trans ((sameAt_call hsound hsecond hshown').trans hlastFirst)

end World

def Call.registration (details : Details) : Call := .operate (.register (some details.toValue) none none none)

theorem Call.isAbout_registration (details : Details) : (registration details).IsAbout details.id :=
  fun _ hdetails ↦ congrArg Details.id (Except.ok.inj hdetails).symm

namespace World

/-- Worlds with nothing but tables in memory that have no faults. -/
theorem isFaultless_of_memory {world : World}
    (h : ∀ table ∈ world.tables, table.faults = [] ∧ (table.store matches .memory _) = true) (number : Nat) :
    world.IsFaultless number := by
  intro table htable
  obtain ⟨hfaults, hmemory⟩ := h table (List.mem_of_getElem? htable)
  refine ⟨hfaults, ?_⟩
  cases hstore : table.store with
  | memory memory => trivial
  | hosted hosted =>
    rw [hstore] at hmemory
    cases hmemory

/-- Beside a datanode that is registered, another one may be registered before or after the first is put out of
service; and beside those two, a third one may be registered before or after one of them is removed. -/
theorem calls_commute_after_registrations :
    let one := Details.sample "/rack1"
    let two := Details.neighbour "/rack2"
    let three : Details := ⟨(Details.sample "/rack3").members.set "uuid" (.text "5a0d4c1e-7f2b-4b7e-8d53-2f6b9c1e0a17")⟩
    let first := [Call.registration one].map Move.call
    let both := [Call.registration one, Call.registration two].map Move.call
    let world := initial .default
    let decommission := Call.operate (.setState one.id (some (.text OperationalState.decommissioned.name)) none)
    (world.after first).Commute (.registration two) decommission ∧
      (world.after both).Commute (.operate (.remove two.id)) (.registration three) := by
  intro one two three first both world decommission
  have hempty := hasEmptyMemory_initial .default
  have hfaultless (past : List Move) (h : ∀ table ∈ (world.after past).tables,
      table.faults = [] ∧ (table.store matches .memory _) = true) {number : Nat}
      (_ : (world.after past).manager.table = some number) : (world.after past).IsFaultless number :=
    isFaultless_of_memory h number
  constructor
  · have htwo := Call.isAbout_registration two
    exact calls_commute_after hempty rfl first (hfaultless first (by decide +kernel)) htwo rfl (by decide +kernel)
      (.inl fun ⟨_, hplaces⟩ ↦ hplaces)
  · have hthree := Call.isAbout_registration three
    exact calls_commute_after hempty rfl both (hfaultless both (by decide +kernel)) rfl hthree (by decide +kernel)
      (.inr ⟨one.id, by decide +kernel, by decide +kernel, by decide +kernel⟩)

/-- Of two registrations at different depths the earlier one decides about the other. -/
example : ¬ (initial .default).Commute (.registration (.sample "/rack1")) (.registration (.neighbour "/row1/rack1")) :=
  fun h ↦ absurd h.repliesSecond (by decide +kernel)

end World

end ClusterMembership
