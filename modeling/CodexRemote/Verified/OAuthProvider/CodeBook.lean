import CodexRemote.Foundations.Runs
import CodexRemote.McpServer.OAuthProvider

/-! # The life of authorization codes

Every code that was issued is waiting, held by an exchange, or spent by a saved pair, or
has been discarded.  This is the code traffic of the provider by itself: the moves that a
book of codes allows, and what every one of them keeps.
-/

namespace CodexRemote.Verified.OAuthProvider

open Foundations McpServer

structure CodeBook where
  waiting : Table AuthorizationCodeRecord.code
  exchanging : Table AuthorizationCodeRecord.code
  /-- claimed, and neither saved nor given back -/
  held : List AuthorizationCodeRecord
  saved : List String
  sweeps : List Int
  secrets : List String

/-- A sweep has seen the code expired. -/
def CodeBook.lapsed (book : CodeBook) (code : AuthorizationCodeRecord) : Bool :=
  book.sweeps.any (code.expiresAt < ·)

def CodeBook.discard (book : CodeBook) (now : Int) : CodeBook :=
  { book with
    waiting := book.waiting.delete fun item => item.expiresAt < now
    exchanging := book.exchanging.delete fun item => item.expiresAt < now
    sweeps := now :: book.sweeps }

/-- The places a code string takes: none for a code that is not issued yet or discarded. -/
def CodeBook.places (book : CodeBook) (code : String) : Nat :=
  book.waiting.count (fun item => item.code = code) +
    book.held.countP (fun item => item.code = code) + book.saved.count code

/-- The codes that have not expired and meet a condition, waiting or being exchanged. -/
def CodeBook.retained (book : CodeBook) (condition : AuthorizationCodeRecord → Bool) : Nat :=
  book.waiting.count (fun code => !book.lapsed code && condition code) +
    book.exchanging.count (fun code => !book.lapsed code && condition code)

inductive CodeEvent where
  | idle
  | swept (now : Int)
  | issued (now : Int) (code : AuthorizationCodeRecord)
  | claimed (now : Int) (code : AuthorizationCodeRecord)
  | saved (code : AuthorizationCodeRecord)
  | finished (code : AuthorizationCodeRecord)
  | returned (code : AuthorizationCodeRecord)
  | restarted

inductive CodeMove (config : OAuthProviderConfig) : CodeBook → CodeEvent → CodeBook → Prop where
  | idle {book : CodeBook} : CodeMove config book .idle book
  | swept {book : CodeBook} (now : Int) : CodeMove config book (.swept now) (book.discard now)
  | issued {book : CodeBook} {now : Int} {code : AuthorizationCodeRecord}
      (fresh : code.code ∉ book.secrets)
      (total : (book.discard now).waiting.rows.length + (book.discard now).exchanging.rows.length <
        config.authorizationCodeLimit)
      (client : (book.discard now).waiting.count (fun item => item.clientId = code.clientId) +
        (book.discard now).exchanging.count (fun item => item.clientId = code.clientId) <
          config.authorizationCodePerClientLimit) :
      CodeMove config book (.issued now code)
        { book.discard now with
          waiting := (book.discard now).waiting.put code
          secrets := code.code :: book.secrets }
  | claimed {book : CodeBook} {front back : List AuthorizationCodeRecord} {now : Int}
      {code : AuthorizationCodeRecord} (present : code ∈ (book.discard now).waiting.rows)
      (held : book.held = front ++ back) :
      CodeMove config book (.claimed now code)
        { book.discard now with
          waiting := (book.discard now).waiting.remove code.code
          exchanging := (book.discard now).exchanging.put code
          held := front ++ code :: back }
  | saved {book : CodeBook} {front back : List AuthorizationCodeRecord}
      {code : AuthorizationCodeRecord} (held : book.held = front ++ code :: back) :
      CodeMove config book (.saved code)
        { book with held := front ++ back, saved := code.code :: book.saved }
  | finished {book : CodeBook} {code : AuthorizationCodeRecord} (spent : code.code ∈ book.saved) :
      CodeMove config book (.finished code)
        { book with exchanging := book.exchanging.remove code.code }
  | returned {book : CodeBook} {front back : List AuthorizationCodeRecord}
      {code : AuthorizationCodeRecord} (held : book.held = front ++ code :: back) :
      CodeMove config book (.returned code)
        { book with
          waiting := book.waiting.put code
          exchanging := book.exchanging.remove code.code
          held := front ++ back }
  | restarted {book : CodeBook} :
      CodeMove config book .restarted
        { book with waiting := .empty, exchanging := .empty, held := [] }

/-- Secrets that are no codes leave the rest of the book alone. -/
def CodeBook.hears (book : CodeBook) (secrets : List String) : CodeBook :=
  { book with secrets := secrets ++ book.secrets }

structure CodeBook.Valid (config : OAuthProviderConfig) (book : CodeBook) : Prop where
  once : ∀ code, book.places code ≤ 1
  fresh : ∀ code, code ∉ book.secrets → book.places code = 0
  tracked : ∀ code ∈ book.held, book.lapsed code = true ∨ code ∈ book.exchanging.rows
  total : book.retained (fun _ => true) ≤ config.authorizationCodeLimit
  client : ∀ clientId, book.retained (fun code => code.clientId = clientId) ≤
    config.authorizationCodePerClientLimit

variable {config : OAuthProviderConfig} {book next : CodeBook}

theorem CodeBook.Valid.hears (valid : book.Valid config) (secrets : List String) :
    (book.hears secrets).Valid config := by
  refine { valid with fresh := ?_ }
  intro code unknown
  simp only [CodeBook.hears, List.mem_append, not_or] at unknown
  exact valid.fresh code unknown.2

/-! ## Places -/

variable {code : AuthorizationCodeRecord} {event : CodeEvent}

theorem mem_discard_waiting {now : Int} :
    code ∈ (book.discard now).waiting.rows ↔ code ∈ book.waiting.rows ∧ now ≤ code.expiresAt := by
  simp [CodeBook.discard, Table.delete]

theorem discard_places_le (now : Int) (code : String) :
    (book.discard now).places code ≤ book.places code := by
  have fewer := book.waiting.count_delete_le (fun item => item.expiresAt < now)
    (fun item => item.code = code)
  simp only [CodeBook.places, CodeBook.discard]
  omega

/-- No move but an issue gives a code string a place. -/
theorem CodeMove.places (move : CodeMove config book event next) (code : String) :
    next.places code ≤ book.places code ∨
      ∃ now record, event = .issued now record ∧ record.code = code ∧ code ∉ book.secrets ∧
        next.places code ≤ book.places code + 1 := by
  cases move with
  | idle => exact Or.inl (Nat.le_refl _)
  | swept now => exact Or.inl (discard_places_le now code)
  | @issued now record fresh total client =>
    have fewer := @discard_places_le book now code
    have more := (book.discard now).waiting.count_put_le record (fun item => item.code = code)
    by_cases same : record.code = code
    · right
      refine ⟨now, record, rfl, same, same ▸ fresh, ?_⟩
      simp only [CodeBook.places, CodeBook.discard, same, decide_true, Bool.toNat_true] at *
      omega
    · left
      simp only [CodeBook.places, CodeBook.discard, same, decide_false, Bool.toNat_false] at *
      omega
  | @claimed front back now record present held =>
    have fewer := @discard_places_le book now code
    have taken := Table.count_remove present (fun item => item.code = code)
    left
    simp only [CodeBook.places, CodeBook.discard, held, List.countP_append,
      List.countP_cons] at *
    by_cases same : record.code = code
    · simp only [same, decide_true, Bool.toNat_true, if_true] at *
      omega
    · simp only [same, decide_false, Bool.toNat_false, if_false, Bool.false_eq_true] at *
      omega
  | @saved front back record held =>
    left
    simp only [CodeBook.places, held, List.countP_append, List.countP_cons, List.count_cons,
      beq_iff_eq]
    by_cases same : record.code = code
    · simp only [same, decide_true, if_true]
      omega
    · simp only [same, decide_false, if_false, Bool.false_eq_true]
      omega
  | finished spent => exact Or.inl (Nat.le_refl _)
  | @returned front back record held =>
    have more := book.waiting.count_put_le record (fun item => item.code = code)
    left
    simp only [CodeBook.places, held, List.countP_append, List.countP_cons] at *
    by_cases same : record.code = code
    · simp only [same, decide_true, Bool.toNat_true, if_true] at *
      omega
    · simp only [same, decide_false, Bool.toNat_false, if_false, Bool.false_eq_true] at *
      omega
  | restarted =>
    left
    simp only [CodeBook.places, Table.empty, Table.count, List.countP_nil]
    omega

/-! ## Held codes are tracked -/

theorem count_pos_of_mem {t : Table AuthorizationCodeRecord.code}
    (present : code ∈ t.rows) : 0 < t.count (fun item => item.code = code.code) := by
  simp only [Table.count, List.countP_pos_iff, decide_eq_true_eq]
  exact ⟨code, present, rfl⟩

theorem held_pos {held : List AuthorizationCodeRecord}
    (present : code ∈ held) : 0 < held.countP (fun item => item.code = code.code) := by
  simp only [List.countP_pos_iff, decide_eq_true_eq]
  exact ⟨code, present, rfl⟩

/-- A held code is neither waiting nor spent. -/
theorem CodeBook.Valid.held_alone (valid : book.Valid config) (held : code ∈ book.held) :
    book.waiting.count (fun item => item.code = code.code) = 0 ∧ code.code ∉ book.saved := by
  have once := valid.once code.code
  have one := held_pos held
  simp only [CodeBook.places] at once
  refine ⟨by omega, ?_⟩
  intro spent
  have two := List.count_pos_iff.2 spent
  omega

theorem lapsed_discard {now : Int} :
    (book.discard now).lapsed code = (decide (code.expiresAt < now) || book.lapsed code) := by
  simp [CodeBook.lapsed, CodeBook.discard]

/-- A tracked code is tracked after a sweep. -/
theorem tracked_discard (now : Int)
    (tracked : book.lapsed code = true ∨ code ∈ book.exchanging.rows) :
    (book.discard now).lapsed code = true ∨ code ∈ (book.discard now).exchanging.rows := by
  rw [lapsed_discard]
  by_cases over_ : code.expiresAt < now
  · exact Or.inl (by simp [over_])
  · obtain lapsed | present := tracked
    · exact Or.inl (by simp [lapsed])
    · right
      simp only [CodeBook.discard, Table.delete, List.mem_filter]
      exact ⟨present, by simp [over_]⟩

theorem CodeMove.tracked (move : CodeMove config book event next) (valid : book.Valid config) :
    ∀ code ∈ next.held, next.lapsed code = true ∨ code ∈ next.exchanging.rows := by
  intro code held'
  cases move with
  | idle => exact valid.tracked code held'
  | swept now => exact tracked_discard now (valid.tracked code held')
  | issued => exact tracked_discard _ (valid.tracked code held')
  | @claimed front back now record present held =>
    simp only [List.mem_append, List.mem_cons] at held'
    by_cases same : code = record
    · exact Or.inr (Table.mem_put.2 (Or.inr same))
    · have earlier : code ∈ book.held := by
        rw [held, List.mem_append]
        obtain before | here | behind := held'
        · exact Or.inl before
        · exact absurd here same
        · exact Or.inr behind
      obtain lapsed | kept := tracked_discard now (valid.tracked code earlier)
      · exact Or.inl lapsed
      · refine Or.inr (Table.mem_put.2 (Or.inl ⟨kept, ?_⟩))
        -- the claimed code is waiting, so no other exchange holds one of its name
        intro named
        have waiting := count_pos_of_mem (mem_discard_waiting.1 present).1
        rw [← named, (valid.held_alone earlier).1] at waiting
        omega
  | @saved front back record held =>
    refine valid.tracked code ?_
    rw [held, List.mem_append]
    simp only [List.mem_append] at held'
    obtain before | behind := held'
    · exact Or.inl before
    · exact Or.inr (List.mem_cons_of_mem _ behind)
  | @finished record spent =>
    obtain lapsed | kept := valid.tracked code held'
    · exact Or.inl lapsed
    · refine Or.inr (Table.mem_remove.2 ⟨kept, ?_⟩)
      intro named
      exact (valid.held_alone held').2 (named ▸ spent)
  | @returned front back record held =>
    have earlier : code ∈ book.held := by
      rw [held, List.mem_append]
      simp only [List.mem_append] at held'
      obtain before | behind := held'
      · exact Or.inl before
      · exact Or.inr (List.mem_cons_of_mem _ behind)
    obtain lapsed | kept := valid.tracked code earlier
    · exact Or.inl lapsed
    · refine Or.inr (Table.mem_remove.2 ⟨kept, ?_⟩)
      intro named
      have once := valid.once record.code
      have one : 0 < (front ++ back).countP (fun item => item.code = record.code) :=
        named ▸ held_pos held'
      simp only [CodeBook.places, held, List.countP_append, List.countP_cons, decide_true,
        if_true] at once one
      omega
  | restarted => cases held'

/-! ## Retained codes are within the limits -/

theorem retained_discard_le (now : Int) (condition : AuthorizationCodeRecord → Bool) :
    (book.discard now).retained condition ≤ book.retained condition := by
  have later : ∀ t : Table AuthorizationCodeRecord.code,
      t.count (fun code => !(book.discard now).lapsed code && condition code) ≤
        t.count (fun code => !book.lapsed code && condition code) := by
    intro t
    apply List.countP_mono_left
    intro code _ live
    rw [lapsed_discard] at live
    simp only [Bool.and_eq_true, Bool.not_eq_true', Bool.or_eq_false_iff] at live ⊢
    exact ⟨live.1.2, live.2⟩
  have waiting := later (book.discard now).waiting
  have exchanging := later (book.discard now).exchanging
  have fewer := book.waiting.count_delete_le (fun item => item.expiresAt < now)
    (fun code => !book.lapsed code && condition code)
  have fewer' := book.exchanging.count_delete_le (fun item => item.expiresAt < now)
    (fun code => !book.lapsed code && condition code)
  simp only [CodeBook.retained] at *
  simp only [CodeBook.discard] at *
  omega

/-- No move but an issue retains more codes. -/
theorem CodeMove.retained (move : CodeMove config book event next)
    (valid : book.Valid config) (condition : AuthorizationCodeRecord → Bool) :
    next.retained condition ≤ book.retained condition ∨
      ∃ now record, event = .issued now record ∧ condition record = true ∧
        next.retained condition ≤ (book.discard now).retained condition + 1 := by
  cases move with
  | idle => exact Or.inl (Nat.le_refl _)
  | swept now => exact Or.inl (retained_discard_le now condition)
  | @issued now record _ _ _ =>
    have fewer := @retained_discard_le book now condition
    have more := (book.discard now).waiting.count_put_le record
      (fun code => !(book.discard now).lapsed code && condition code)
    have same : ∀ code, CodeBook.lapsed { book.discard now with
        waiting := (book.discard now).waiting.put record
        secrets := record.code :: book.secrets } code = (book.discard now).lapsed code :=
      fun _ => rfl
    cases meets : condition record with
    | true =>
      right
      refine ⟨now, record, rfl, meets, ?_⟩
      have one := Bool.toNat_le (!(book.discard now).lapsed record && condition record)
      simp only [CodeBook.retained, same] at *
      omega
    | false =>
      left
      simp only [CodeBook.retained, same, meets, Bool.and_false, Bool.toNat_false] at *
      omega
  | @claimed front back now record present held =>
    have fewer := @retained_discard_le book now condition
    have more := (book.discard now).exchanging.count_put_le record
      (fun code => !(book.discard now).lapsed code && condition code)
    have taken := Table.count_remove present
      (fun code => !(book.discard now).lapsed code && condition code)
    have same : ∀ code, CodeBook.lapsed { book.discard now with
        waiting := (book.discard now).waiting.remove record.code
        exchanging := (book.discard now).exchanging.put record
        held := front ++ record :: back } code = (book.discard now).lapsed code :=
      fun _ => rfl
    left
    simp only [CodeBook.retained, same] at *
    omega
  | saved => exact Or.inl (Nat.le_refl _)
  | @finished record spent =>
    have fewer := book.exchanging.count_delete_le (fun item => item.code = record.code)
      (fun code => !book.lapsed code && condition code)
    left
    simp only [CodeBook.retained, Table.remove] at *
    exact Nat.add_le_add_left fewer _
  | @returned front back record held =>
    have more := book.waiting.count_put_le record
      (fun code => !book.lapsed code && condition code)
    have fewer := book.exchanging.count_delete_le (fun item => item.code = record.code)
      (fun code => !book.lapsed code && condition code)
    have same : ∀ code, CodeBook.lapsed { book with
        waiting := book.waiting.put record
        exchanging := book.exchanging.remove record.code
        held := front ++ back } code = book.lapsed code :=
      fun _ => rfl
    left
    -- a code given back was counted in the other map, or has lapsed and is not counted
    obtain lapsed | present := valid.tracked record (by rw [held]; simp)
    · simp only [CodeBook.retained, same, lapsed, Bool.not_true, Bool.false_and,
        Bool.toNat_false, Table.remove] at *
      omega
    · have taken := Table.count_remove present
        (fun code => !book.lapsed code && condition code)
      simp only [CodeBook.retained, same] at *
      omega
  | restarted =>
    left
    simp only [CodeBook.retained, Table.empty, Table.count, List.countP_nil]
    omega

theorem retained_le_count (condition : AuthorizationCodeRecord → Bool) :
    book.retained condition ≤ book.waiting.count condition + book.exchanging.count condition := by
  have fewer : ∀ t : Table AuthorizationCodeRecord.code,
      t.count (fun code => !book.lapsed code && condition code) ≤ t.count condition := by
    intro t
    apply List.countP_mono_left
    intro code _ both
    simp only [Bool.and_eq_true] at both
    exact both.2
  have waiting := fewer book.waiting
  have exchanging := fewer book.exchanging
  simp only [CodeBook.retained]
  omega

theorem CodeMove.valid (move : CodeMove config book event next)
    (valid : book.Valid config) : next.Valid config := by
  constructor
  · intro code
    obtain fewer | ⟨_, _, rfl, _, unknown, more⟩ := move.places code
    · exact le_trans fewer (valid.once code)
    · have none_ := valid.fresh code unknown
      omega
  · intro code unknown
    have known : ∀ secret ∈ book.secrets, secret ∈ next.secrets := by
      intro secret member
      cases move with
      | issued => exact List.mem_cons_of_mem _ member
      | _ => exact member
    obtain fewer | ⟨now, record, rfl, named, _, _⟩ := move.places code
    · have none_ := valid.fresh code fun member => unknown (known code member)
      omega
    · cases move
      exact absurd (named ▸ List.mem_cons_self ..) unknown
  · exact move.tracked valid
  · obtain fewer | ⟨now, record, rfl, _, more⟩ := move.retained valid (fun _ => true)
    · exact le_trans fewer valid.total
    · cases move with
      | issued _ total _ =>
        have bound := @retained_le_count (book.discard now) (fun _ => true)
        simp only [Table.count, List.countP_true] at bound
        omega
  · intro clientId
    obtain fewer | ⟨now, record, rfl, owner, more⟩ :=
      move.retained valid (fun code => code.clientId = clientId)
    · exact le_trans fewer (valid.client clientId)
    · cases move with
      | issued _ _ client =>
        have bound := @retained_le_count (book.discard now) (fun code => code.clientId = clientId)
        simp only [decide_eq_true_eq] at owner
        rw [owner] at client
        omega

/-- A waiting code stays until it is claimed, is swept after its expiry, or the process ends. -/
theorem CodeMove.waiting (move : CodeMove config book event next)
    (valid : book.Valid config) (present : code ∈ book.waiting.rows) :
    code ∈ next.waiting.rows ∨ event = .restarted ∨
      (∃ now, code.expiresAt < now ∧ now ∈ next.sweeps) ∨
      ∃ now record, event = .claimed now record ∧ record.code = code.code := by
  have alone := valid.once code.code
  have one := count_pos_of_mem present
  have swept : ∀ now, code ∈ (book.discard now).waiting.rows ∨
      ∃ at_, code.expiresAt < at_ ∧ at_ ∈ (book.discard now).sweeps := by
    intro now
    by_cases live : now ≤ code.expiresAt
    · exact Or.inl (mem_discard_waiting.2 ⟨present, live⟩)
    · exact Or.inr ⟨now, by omega, List.mem_cons_self ..⟩
  cases move with
  | idle => exact Or.inl present
  | swept now =>
    obtain kept | gone := swept now
    · exact Or.inl kept
    · exact Or.inr (Or.inr (Or.inl gone))
  | @issued now record fresh _ _ =>
    obtain kept | gone := swept now
    · refine Or.inl (Table.mem_put.2 (Or.inl ⟨kept, ?_⟩))
      intro named
      have none_ := valid.fresh record.code fresh
      rw [← named] at none_
      simp only [CodeBook.places] at none_
      omega
    · exact Or.inr (Or.inr (Or.inl gone))
  | @claimed front back now record _ _ =>
    by_cases named : record.code = code.code
    · exact Or.inr (Or.inr (Or.inr ⟨now, record, rfl, named⟩))
    · obtain kept | gone := swept now
      · exact Or.inl (Table.mem_remove.2 ⟨kept, Ne.symm named⟩)
      · exact Or.inr (Or.inr (Or.inl gone))
  | saved => exact Or.inl present
  | finished => exact Or.inl present
  | @returned front back record held =>
    refine Or.inl (Table.mem_put.2 (Or.inl ⟨present, ?_⟩))
    intro named
    have zero := (valid.held_alone (show record ∈ book.held by rw [held]; simp)).1
    rw [← named] at zero
    omega
  | restarted => exact Or.inr (Or.inl rfl)

end CodexRemote.Verified.OAuthProvider
