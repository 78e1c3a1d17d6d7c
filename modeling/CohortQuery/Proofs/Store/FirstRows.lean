import CohortQuery.Proofs.Cohort.Listed
import CohortQuery.Proofs.Store.Sending

/-!
# The first members

A listing asks for its rows one by one until it has as many as it may give. So it answers with the
first rows that the store sends, and a fault counts only if it comes before the last of them.
-/

set_option autoImplicit false

namespace CohortQuery.Store

variable {α β : Type}

namespace Cursor

theorem collect_ok (missing : Nat) (c : Cursor α) (found : List α) :
    c.collect missing = .ok found ↔
      found = c.rows.take missing ∧ (c.fault = none ∨ missing ≤ c.rows.length) := by
  obtain ⟨rows, fault⟩ := c
  rw [collect_first]
  cases fault with
  | none => simp [firstRows, eq_comm]
  | some f => by_cases hl : missing ≤ rows.length <;> simp [firstRows, hl, eq_comm]

theorem collect_error (missing : Nat) (c : Cursor α) (f : ClientFault) :
    c.collect missing = .error f ↔ c.fault = some f ∧ c.rows.length < missing := by
  obtain ⟨rows, fault⟩ := c
  rw [collect_first]
  cases fault with
  | none => simp [firstRows]
  | some g =>
    by_cases hl : missing ≤ rows.length
    · simp [firstRows, hl]
    · simp [firstRows, hl, Nat.lt_of_not_le hl]

end Cursor

/-- The rows of one kind that a reply sends, and the fault behind them. -/
def Reply.cursor (kind : Table → Option (List α)) : Reply → Cursor α
  | rows table fault =>
    match kind table with
    | some found => ⟨found, fault⟩
    | none => ⟨[], some (.badReply "Could not read columns header")⟩
  | refusal status body => ⟨[], some (.ofStatus status body)⟩
  | unreachable reason => ⟨[], some (.unreachable reason)⟩
  | silence => ⟨[], some .silence⟩

theorem cursor_collect (kind : Table → Option (List α)) {limit : Nat} (hl : limit ≠ 0)
    (reply : Reply) : reply.table? >>= streamed kind >>= firstRows limit =
      (reply.cursor kind).collect limit := by
  have lost (f : ClientFault) : Cursor.collect (α := α) limit ⟨[], some f⟩ = .error f :=
    (Cursor.collect_error limit _ f).mpr ⟨rfl, Nat.pos_of_ne_zero hl⟩
  cases reply with
  | rows table fault =>
    change streamed kind (table, fault) >>= firstRows limit = _
    unfold streamed Reply.cursor
    dsimp only
    cases kind table with
    | none => exact (lost _).symm
    | some rows => exact (collect_first limit rows fault).symm
  | refusal status body => exact (lost _).symm
  | unreachable reason => exact (lost _).symm
  | silence => exact (lost _).symm

def StoreError.ofFault (seconds : Nat) (f : ClientFault) : StoreError :=
  if f = .silence then .timeout seconds else .client f

theorem limited_value {seconds : Nat} (hs : seconds ≠ 0) {q : Query} (hv : Verbatim q.sql)
    (fetches : Bool) (f : Reply → Except ClientFault α) (k : α → Operation β)
    (otherwise reply : Reply) (replies : List Reply) :
    ((Operation.within seconds (Call.asking q fetches f) >>= k).run.play otherwise
        (reply :: replies)).value =
      match f reply with
      | .ok a => ((k a).run.play otherwise replies).value
      | .error g => .error (.ofFault seconds g) := by
  have asked : (Call.asking q fetches f).run =
      .ask ⟨q.sql, q.params, fetches⟩ fun reply => .done (f reply) := by
    unfold Call.asking
    rw [expand_verbatim hv]
    rfl
  unfold Operation.within
  rw [asked]
  dsimp only [bind, ExceptT.bind, ExceptT.mk, ExceptT.run, Exchange.bind, Exchange.play, pure,
    ExceptT.bindCont]
  match f reply with
  | .ok a =>
    dsimp only
    rw [if_neg hs]
    rfl
  | .error .silence | .error .unboundArgument | .error .unboundFields => rfl
  | .error .noRows | .error (.badReply _) | .error (.unreachable _) =>
    dsimp only
    rw [if_neg hs]
    rfl

theorem limited_late (call : Call α) (k : α → Operation β) (otherwise : Reply)
    (replies : List Reply) (b : β) :
    ((Operation.within 0 call >>= k).run.play otherwise replies).value ≠ .ok b := by
  intro h
  obtain ⟨ts, ht, _⟩ := Exchange.play_talks otherwise (Operation.within 0 call >>= k).run replies
  rw [h] at ht
  rcases (talks_seq _ _ _ _).mp ht with ⟨ho, _⟩ | ⟨e, ho, _⟩ | ⟨a, before, _, _, ha, _⟩
  · cases ho
  · simp at ho
  · rcases talks_limited 0 call ha with ⟨ho, _⟩ | ⟨_, _, ho | ⟨_, _, hz, _⟩ | ⟨_, _, ho⟩⟩
    · cases ho
    · cases ho
    · exact hz rfl
    · cases ho

def listed (limit : Nat) (found : List Member) : Operation (List Member) := do
  if found.length = limit then
    Operation.note (Log.debug "Cohort member listing truncated" [("limit", Text.numeral limit)])
  return found

theorem listed_value (limit : Nat) (found : List Member) (otherwise : Reply)
    (replies : List Reply) :
    ((listed limit found).run.play otherwise replies).value = .ok found := by
  unfold listed
  split <;> rfl

theorem members_value (timeout : Nat) {limit : Nat} (hl : limit ≠ 0) {r : CohortRequest}
    {q : Query} (hq : r.listing = .ok q) (otherwise : Reply) (replies : List Reply) :
    ((members timeout r limit).run.play otherwise replies).value =
      ((Operation.within timeout (Call.fetchFirst limit Table.members? q) >>=
        listed limit).run.play otherwise replies).value := by
  unfold members
  rw [hq]
  simp only [if_neg hl]
  rfl

theorem members_none (timeout : Nat) {r : CohortRequest} {q : Query} (hq : r.listing = .ok q)
    (otherwise : Reply) (replies : List Reply) :
    ((members timeout r 0).run.play otherwise replies).value = .ok [] := by
  unfold members
  rw [hq]
  rfl

theorem members_collect {timeout limit : Nat} (ht : timeout ≠ 0) (hl : limit ≠ 0)
    {r : CohortRequest} {q : Query} (hq : r.listing = .ok q) (otherwise reply : Reply)
    (replies : List Reply) :
    ((members timeout r limit).run.play otherwise (reply :: replies)).value =
      ((reply.cursor Table.members?).collect limit).mapError (.ofFault timeout) := by
  have hs : (Step.first Table.members? q limit).within timeout ∈ Step.listing timeout limit q := by
    rw [Step.listing, if_neg hl]
    exact List.mem_singleton_self _
  have hv : Verbatim q.sql := listing_steps_verbatim timeout limit hq _ hs
  rw [members_value timeout hl hq, fetch_first_asking hl, limited_value ht hv,
    cursor_collect Table.members? hl]
  cases (reply.cursor Table.members?).collect limit with
  | ok found => exact listed_value limit found otherwise replies
  | error f => rfl

/-- A listing answers with the first rows that the store sends, in their order, if these come
before a fault. A fault that comes earlier is its error. -/
theorem members_first (timeout limit : Nat) (r : CohortRequest) (q : Query)
    (hq : r.listing = .ok q) (otherwise reply : Reply) (replies : List Reply) :
    let answer := ((members timeout r limit).run.play otherwise (reply :: replies)).value
    let sent := reply.cursor Table.members?
    (∀ found, answer = .ok found ↔ found = sent.rows.take limit ∧
      (sent.fault = none ∨ limit ≤ sent.rows.length) ∧ (timeout = 0 → limit = 0)) ∧
    (timeout ≠ 0 → ∀ e, answer = .error e ↔ ∃ f, sent.fault = some f ∧
      sent.rows.length < limit ∧ e = .ofFault timeout f) ∧
    ∀ found, answer = .ok found →
      found.length = min limit sent.rows.length ∧ found <+: sent.rows := by
  intro answer sent
  have answered (found : List Member) : answer = .ok found ↔ found = sent.rows.take limit ∧
      (sent.fault = none ∨ limit ≤ sent.rows.length) ∧ (timeout = 0 → limit = 0) := by
    by_cases hl : limit = 0
    · subst hl
      have hn : answer = .ok [] := members_none timeout hq otherwise _
      rw [hn]
      simp [eq_comm]
    · by_cases ht : timeout = 0
      · subst ht
        refine iff_of_false ?_ fun h => hl (h.2.2 rfl)
        exact (members_value 0 hl hq otherwise _).trans_ne (limited_late _ _ otherwise _ found)
      · have hc : answer = (sent.collect limit).mapError (.ofFault timeout) :=
          members_collect ht hl hq otherwise reply replies
        rw [hc, ← and_assoc, ← Cursor.collect_ok]
        cases sent.collect limit <;> simp [Except.mapError, ht]
  refine ⟨answered, fun ht e => ?_, fun found hf => ?_⟩
  · by_cases hl : limit = 0
    · subst hl
      have hn : answer = .ok [] := members_none timeout hq otherwise _
      simp [hn]
    · have hc : answer = (sent.collect limit).mapError (.ofFault timeout) :=
        members_collect ht hl hq otherwise reply replies
      simp only [hc, ← and_assoc, ← Cursor.collect_error]
      cases sent.collect limit <;> simp [Except.mapError, eq_comm]
  · obtain ⟨rfl, _⟩ := (answered found).mp hf
    exact ⟨List.length_take, List.take_prefix limit sent.rows⟩

/-- Two members come before the reply breaks off: enough for two, and too few for three. -/
def brokenReply : Reply :=
  .rows (.members [⟨"ann", "p1"⟩, ⟨"bob", "p2"⟩]) (some (.badReply "Memory limit exceeded"))

theorem everyone_first : ∃ q, everyone.listing = .ok q ∧
    ((members 30 everyone 2).run.play .silence [brokenReply]).value =
      .ok [⟨"ann", "p1"⟩, ⟨"bob", "p2"⟩] ∧
    ((members 30 everyone 3).run.play .silence [brokenReply]).value =
      .error (.client (.badReply "Memory limit exceeded")) := by
  obtain ⟨_, b, _, _, hb, hy⟩ := everyone_compiled
  have hq := (request_listing everyone _).mpr ⟨b, _, b, hb, hy, rfl⟩
  obtain ⟨found, _⟩ := members_first 30 2 everyone _ hq .silence brokenReply []
  obtain ⟨_, failed, _⟩ := members_first 30 3 everyone _ hq .silence brokenReply []
  refine ⟨_, hq, (found _).mpr ⟨rfl, .inr (by decide), by decide⟩, ?_⟩
  exact (failed (by decide) _).mpr ⟨_, rfl, by decide, rfl⟩

end CohortQuery.Store
