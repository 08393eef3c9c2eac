import CodexRemote.Verified.PromptIntake.Moves
import CodexRemote.Verified.Stop.Acceptance

/-! # What a stop has covered stays where it was

A relation between two stores, kept by every write that the operations below make: holds grow, a
held job is not moved to starting, a held intake is not taken away and a held original request is
not handed over.
-/

namespace CodexRemote.Verified.Stop

open Foundations Store
open Verified.Queue Verified.PromptIntake

variable {ρ : Type}

/-- A held original request was sent with this event. -/
def StopHeldEvent (db : QueueDb ρ) (event : Int) : Prop :=
  ∃ row ∈ db.ingress.rows, HeldOriginal row ∧ row.eventId = some event

structure WorkKept (db next : QueueDb ρ) : Prop where
  holds : HoldsKept db next
  started : ∀ id, (db.holds.find id).isSome → ∀ later, next.jobs.find id = some later →
    later.state = .starting → ∃ row, db.jobs.find id = some row ∧ row.state = .starting
  preparing : ∀ id, (db.holds.find id).isSome → (db.intakes.find id).isSome →
    (next.intakes.find id).isSome
  originals : ∀ row ∈ db.ingress.rows, HeldOriginal row → ∃ later,
    next.ingress.find row.ingressId = some later ∧ HeldOriginal later ∧ later.eventId = row.eventId
  queued : ∀ event, StopHeldEvent db event → ∀ job ∈ next.jobs.rows,
    job.discordMessageId = some event →
    ∃ old ∈ db.jobs.rows, old.jobId = job.jobId ∧ old.discordMessageId = some event
  prepared : ∀ event, StopHeldEvent db event → ∀ intake ∈ next.intakes.rows,
    intake.discordMessageId = some event →
    ∃ old ∈ db.intakes.rows, old.jobId = intake.jobId ∧ old.discordMessageId = some event

variable {db next : QueueDb ρ} {hooks : QueueHooks ρ}

namespace WorkKept

/-- The holds, the jobs, the intakes and the journal are the same. -/
theorem of_same {db next : QueueDb ρ} (holds : next.holds = db.holds) (jobs : next.jobs = db.jobs)
    (intakes : next.intakes = db.intakes) (ingress : next.ingress = db.ingress) :
    WorkKept db next where
  holds := .of_same holds
  started _ _ later found starting := ⟨later, jobs ▸ found, starting⟩
  preparing _ _ there := intakes ▸ there
  originals row member held := ⟨row, ingress ▸ Table.find_of_mem member, held, rfl⟩
  queued _ _ job member named := ⟨job, jobs ▸ member, rfl, named⟩
  prepared _ _ intake member named := ⟨intake, intakes ▸ member, rfl, named⟩

theorem refl (db : QueueDb ρ) : WorkKept db db := of_same rfl rfl rfl rfl

theorem of_rest (db : QueueDb ρ) (rest : ρ) : WorkKept db { db with rest := rest } :=
  of_same rfl rfl rfl rfl

theorem heldEvent (kept : WorkKept db next) {event : Int}
    (held : StopHeldEvent db event) : StopHeldEvent next event := by
  obtain ⟨row, member, original, named⟩ := held
  obtain ⟨later, found, still, same⟩ := kept.originals row member original
  exact ⟨later, Table.mem_of_find found, still, same.trans named⟩

theorem isHeld (kept : WorkKept db next) {id : String}
    (held : (db.holds.find id).isSome) : (next.holds.find id).isSome := by
  obtain ⟨hold, found⟩ := Option.isSome_iff_exists.1 held
  rw [kept.holds id hold found]
  rfl

theorem trans {a b c : QueueDb ρ} (left : WorkKept a b) (right : WorkKept b c) :
    WorkKept a c where
  holds := left.holds.trans right.holds
  started id held later found starting := by
    obtain ⟨middle, there, starting⟩ := right.started id (left.isHeld held) later found starting
    exact left.started id held middle there starting
  preparing id held there := right.preparing id (left.isHeld held) (left.preparing id held there)
  originals row member held := by
    obtain ⟨middle, found, still, same⟩ := left.originals row member held
    obtain ⟨later, there, held, again⟩ :=
      right.originals middle (Table.mem_of_find found) still
    rw [Table.find_key found] at there
    exact ⟨later, there, held, again.trans same⟩
  queued event held job member named := by
    obtain ⟨middle, there, id, message⟩ := right.queued event (left.heldEvent held) job member named
    obtain ⟨old, here, same, message⟩ := left.queued event held middle there message
    exact ⟨old, here, same.trans id, message⟩
  prepared event held intake member named := by
    obtain ⟨middle, there, id, message⟩ :=
      right.prepared event (left.heldEvent held) intake member named
    obtain ⟨old, here, same, message⟩ := left.prepared event held middle there message
    exact ⟨old, here, same.trans id, message⟩

/-! ## Writes of one table -/

/-- An update of the jobs that starts no held one -/
theorem of_jobs {selected : QueueRow → Bool} {assign : QueueRow → QueueRow}
    {keeps : ∀ r, (assign r).jobId = r.jobId}
    (message : ∀ r, (assign r).discordMessageId = r.discordMessageId)
    (started : ∀ r ∈ db.jobs.rows, selected r = true → (db.holds.find r.jobId).isSome →
      (assign r).state = .starting → r.state = .starting) :
    WorkKept db { db with jobs := db.jobs.update selected assign keeps } where
  holds := .of_same rfl
  started id held later found starting := by
    rw [Table.find_update] at found
    obtain ⟨row, there, same⟩ := Option.map_eq_some_iff.1 found
    refine ⟨row, there, ?_⟩
    split at same
    · next chosen =>
      subst same
      exact started row (Table.mem_of_find there) chosen (by rwa [Table.find_key there]) starting
    · rw [same]
      exact starting
  preparing _ _ there := there
  originals row member held := ⟨row, Table.find_of_mem member, held, rfl⟩
  queued event _ job member named := by
    obtain ⟨row, there, same⟩ := List.mem_map.1 member
    refine ⟨row, there, ?_⟩
    split at same
    · subst same
      exact ⟨(keeps row).symm, (message row).symm.trans named⟩
    · subst same
      exact ⟨rfl, named⟩
  prepared _ _ intake member named := ⟨intake, member, rfl, named⟩

theorem of_intakes {selected : PromptIntake → Bool}
    {assign : PromptIntake → PromptIntake} {keeps : ∀ r, (assign r).jobId = r.jobId}
    (message : ∀ r, (assign r).discordMessageId = r.discordMessageId) :
    WorkKept db { db with intakes := db.intakes.update selected assign keeps } where
  holds := .of_same rfl
  started _ _ later found starting := ⟨later, found, starting⟩
  preparing _ _ there := @Table.isSome_find_update _ _ _ _ _ _ _ keeps _ there
  originals row member held := ⟨row, Table.find_of_mem member, held, rfl⟩
  queued _ _ job member named := ⟨job, member, rfl, named⟩
  prepared event _ intake member named := by
    obtain ⟨row, there, same⟩ := List.mem_map.1 member
    refine ⟨row, there, ?_⟩
    split at same
    · subst same
      exact ⟨(keeps row).symm, (message row).symm.trans named⟩
    · subst same
      exact ⟨rfl, named⟩

/-- A delete of intakes that have no hold -/
theorem of_delete {selected : PromptIntake → Bool}
    (unheld : ∀ r ∈ db.intakes.rows, selected r = true → db.holds.find r.jobId = none) :
    WorkKept db { db with intakes := db.intakes.delete selected } where
  holds := .of_same rfl
  started _ _ later found starting := ⟨later, found, starting⟩
  preparing id held there := by
    obtain ⟨row, found⟩ := Option.isSome_iff_exists.1 there
    show ((db.intakes.delete selected).find id).isSome = true
    rw [Table.find_delete, found, Option.filter_some]
    cases chosen : selected row with
    | false => rfl
    | true =>
      have free := unheld row (Table.mem_of_find found) chosen
      rw [Table.find_key found] at free
      rw [free] at held
      cases held
  originals row member held := ⟨row, Table.find_of_mem member, held, rfl⟩
  queued _ _ job member named := ⟨job, member, rfl, named⟩
  prepared _ _ intake member named := ⟨intake, (List.mem_filter.1 member).1, rfl, named⟩

/-- An update of the journal that leaves held originals as such -/
theorem of_ingress {selected : IngressRow → Bool}
    {assign : IngressRow → IngressRow} {keeps : ∀ r, (assign r).ingressId = r.ingressId}
    (each : ∀ r ∈ db.ingress.rows, selected r = true → HeldOriginal r →
      HeldOriginal (assign r) ∧ (assign r).eventId = r.eventId) :
    WorkKept db { db with ingress := db.ingress.update selected assign keeps } where
  holds := .of_same rfl
  started _ _ later found starting := ⟨later, found, starting⟩
  preparing _ _ there := there
  originals row member held := by
    refine ⟨_, by rw [Table.find_update, Table.find_of_mem member, Option.map_some], ?_⟩
    split
    · next chosen => exact each row member chosen held
    · exact ⟨held, rfl⟩
  queued _ _ job member named := ⟨job, member, rfl, named⟩
  prepared _ _ intake member named := ⟨intake, member, rfl, named⟩

/-- A new job, pending and not of a held event -/
theorem of_job {row : QueueRow} (holds : next.holds = db.holds)
    (intakes : next.intakes = db.intakes) (ingress : next.ingress = db.ingress)
    (rows : next.jobs.rows = db.jobs.rows ++ [row]) (pending : row.state = .pending)
    (free : ∀ event, row.discordMessageId = some event → ¬StopHeldEvent db event) :
    WorkKept db next where
  holds := .of_same holds
  started id _ later found starting := by
    rw [Table.find_append rows] at found
    split at found
    · cases found
      rw [pending] at starting
      cases starting
    · exact ⟨later, found, starting⟩
  preparing _ _ there := intakes ▸ there
  originals row member held := ⟨row, ingress ▸ Table.find_of_mem member, held, rfl⟩
  queued event held job member named := by
    rw [rows] at member
    obtain old | new := List.mem_append.1 member
    · exact ⟨job, old, rfl, named⟩
    · rw [List.mem_singleton.1 new] at named
      exact absurd held (free event named)
  prepared _ _ intake member named := ⟨intake, intakes ▸ member, rfl, named⟩

/-- A new intake, not of a held event -/
theorem of_intake {row : PromptIntake}
    (rows : next.intakes.rows = db.intakes.rows ++ [row]) (holds : next.holds = db.holds)
    (jobs : next.jobs = db.jobs) (ingress : next.ingress = db.ingress)
    (free : ∀ event, row.discordMessageId = some event → ¬StopHeldEvent db event) :
    WorkKept db next where
  holds := .of_same holds
  started _ _ later found starting := ⟨later, jobs ▸ found, starting⟩
  preparing id _ there := by
    rw [Table.find_append rows]
    split
    · rfl
    · exact there
  originals row member held := ⟨row, ingress ▸ Table.find_of_mem member, held, rfl⟩
  queued _ _ job member named := ⟨job, jobs ▸ member, rfl, named⟩
  prepared event held intake member named := by
    rw [rows] at member
    obtain old | new := List.mem_append.1 member
    · exact ⟨intake, old, rfl, named⟩
    · rw [List.mem_singleton.1 new] at named
      exact absurd held (free event named)

/-- A new request of the journal -/
theorem of_request {row : IngressRow}
    (rows : next.ingress.rows = db.ingress.rows ++ [row]) (holds : next.holds = db.holds)
    (jobs : next.jobs = db.jobs) (intakes : next.intakes = db.intakes) :
    WorkKept db next where
  holds := .of_same holds
  started _ _ later found starting := ⟨later, jobs ▸ found, starting⟩
  preparing _ _ there := intakes ▸ there
  originals original member held :=
    ⟨original, Table.find_of_mem (by rw [rows]; exact List.mem_append_left _ member), held, rfl⟩
  queued _ _ job member named := ⟨job, jobs ▸ member, rfl, named⟩
  prepared _ _ intake member named := ⟨intake, intakes ▸ member, rfl, named⟩

/-! ## Statements -/

theorem of_updateJob {jobId : String} {condition : QueueRow → Bool} {assign : QueueRow → QueueRow}
    {keeps : ∀ r, (assign r).jobId = r.jobId} {updated : Bool}
    (result : updateJob hooks db jobId condition assign keeps = .ok (updated, next))
    (message : ∀ r, (assign r).discordMessageId = r.discordMessageId)
    (started : ∀ r ∈ db.jobs.rows, r.jobId = jobId → condition r = true →
      (db.holds.find r.jobId).isSome → (assign r).state = .starting → r.state = .starting) :
    WorkKept db next := by
  obtain ⟨⟨changed, middle⟩, statement, same⟩ := map_ok.1 result
  cases same
  obtain ⟨_, final, _⟩ := updateJobs_ok statement
  rw [final]
  refine of_jobs message ?_
  intro row member chosen
  simp only [Bool.and_eq_true, beq_iff_eq] at chosen
  exact started row member chosen.1.1 chosen.1.2

theorem of_claimedResult {jobId : String} {updated : Bool} {answer : Option StoredQueueJob}
    (result : claimedResult hooks db jobId updated = .ok (answer, next)) : WorkKept db next := by
  obtain ⟨_, _, same⟩ | ⟨_, ⟨rest, same⟩, _⟩ := claimedResult_ok result
  · rw [same]
    exact .refl db
  · rw [same]
    exact .of_same rfl rfl rfl rfl

theorem of_updateIntakes {condition : PromptIntake → Bool} {assign : PromptIntake → PromptIntake}
    {keeps : ∀ r, (assign r).jobId = r.jobId} {changed : Nat}
    (result : updateIntakes hooks db condition assign keeps = .ok (changed, next))
    (message : ∀ r, (assign r).discordMessageId = r.discordMessageId) : WorkKept db next := by
  obtain ⟨_, final⟩ := updateIntakes_ok result
  rw [final]
  exact of_intakes message

theorem of_updateIngress {condition : IngressRow → Bool} {assign : IngressRow → IngressRow}
    {keeps : ∀ r, (assign r).ingressId = r.ingressId} {changed : Nat}
    (result : updateIngress hooks db condition assign keeps = .ok (changed, next))
    (each : ∀ r ∈ db.ingress.rows, condition r = true → HeldOriginal r →
      HeldOriginal (assign r) ∧ (assign r).eventId = r.eventId) : WorkKept db next := by
  obtain ⟨selected, conditioned, rfl⟩ := updateIngress_ok result
  exact of_ingress fun row member chosen => each row member (conditioned row chosen)

theorem hold (db : QueueDb ρ) (jobId target reason evidence : String) :
    WorkKept db (Store.hold db jobId target reason evidence) where
  holds := .hold db jobId target reason evidence
  started _ _ later found starting := ⟨later, found, starting⟩
  preparing _ _ there := there
  originals row member held := ⟨row, Table.find_of_mem member, held, rfl⟩
  queued _ _ job member named := ⟨job, member, rfl, named⟩
  prepared _ _ intake member named := ⟨intake, member, rfl, named⟩

end WorkKept

end CodexRemote.Verified.Stop
