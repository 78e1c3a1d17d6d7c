import CohortQuery.Proofs.Store.Tables
import CohortQuery.Proofs.Store.Template
import CohortQuery.Store.Client

/-!
# Statements carried out

What the store does with a statement, and what becomes of it during an exchange in which nobody
else writes to it. Its clock may go on from one request to the next. A reply that came to its end
says that the statement was carried out; one that broke off, and one without rows, leave open
whether it was, in part or not at all.
-/

set_option autoImplicit false

namespace CohortQuery.Store

open Sql (Formula RowTest Statement selected)

inductive Table.Begins : Table → Table → Prop where
  | whole (t : Table) : Begins t t
  | members {rows all : List Member} (h : rows <+: all) : Begins (.members rows) (.members all)
  | numbers {rows all : List Nat} (h : rows <+: all) : Begins (.numbers rows) (.numbers all)

theorem begins_numbers {t : Table} {rows all : List Nat} (h : t.Begins (.numbers all))
    (hr : t.numbers? = some rows) : rows <+: all := by
  cases h with
  | whole =>
    obtain rfl := Option.some.inj hr
    exact List.prefix_refl _
  | numbers h =>
    obtain rfl := Option.some.inj hr
    exact h

/-- With the values `params` the statement leaves tables and gives rows. -/
inductive Executes (E : Engine) (params : Params) (tables : Tables) :
    Statement → Tables → Table → Prop where
  | listing {condition : Formula Sql.Test} (rows : List Member)
      (h : ∀ id, id ∈ rows.map Member.distinctId ↔
        id ∈ (selected E params tables condition).map Event.distinctId) :
      Executes E params tables (.listing condition) tables (.members rows)
  | insert {cohort : Placeholder} {condition : Formula Sql.Test} {id : String}
      (h : params.read Value.text? cohort = some id) :
      Executes E params tables (.insert cohort condition)
        { tables with members := tables.members ++
            ((selected E params tables condition).map fun e =>
              ⟨e.project, id, e.distinctId⟩).dedup }
        .nothing
  | clear (condition : Formula RowTest) :
      Executes E params tables (.clear condition)
        { tables with members := tables.members.filter fun m =>
            condition.value (RowTest.memberTruth params m) ≠ some true }
        .nothing
  | count (condition : Formula RowTest) :
      Executes E params tables (.count condition) tables
        (.numbers [(tables.members.filter fun m =>
          condition.value (RowTest.memberTruth params m) = some true).dedup.length])

inductive Effect where
  | none
  | part
  | whole

/-- What is left of the tables, by those before a statement and those behind it. In part means that
some of the rows to be removed are gone, or some of the rows to be added are there. -/
inductive Effect.Leaves (before after : Tables) : Effect → Tables → Prop where
  | none : Leaves before after .none before
  | removed {members : List Membership} (ha : after.members.Sublist members)
      (hb : members.Sublist before.members) : Leaves before after .part { before with members }
  | added {members : List Membership} (hb : before.members.Sublist members)
      (ha : members.Sublist after.members) : Leaves before after .part { before with members }
  | whole : Leaves before after .whole after

theorem leaves_same {tables left : Tables} {effect : Effect}
    (h : effect.Leaves tables tables left) :
    left = tables := by
  cases h with
  | none | whole => rfl
  | removed h h' | added h h' => rw [h'.antisymm h]

inductive Serves (E : Engine) (r : Request) (tables : Tables) :
    Reply → Effect → Tables → Prop where
  | rows (now : Int) {s : Statement} {after left : Tables} {rows all : Table}
      {fault : Option ClientFault} {effect : Effect} (hs : Statement.read r.sql = some s)
      (he : Executes { E with now } r.params tables s after all) (hb : rows.Begins all)
      (hl : effect.Leaves tables after left)
      (hf : fault = none → rows = all ∧ effect = .whole) :
      Serves E r tables (.rows rows fault) effect left
  | lost (now : Int) {s : Statement} {after left : Tables} {all : Table} {reply : Reply}
      {effect : Effect} (hs : Statement.read r.sql = some s)
      (he : Executes { E with now } r.params tables s after all)
      (hl : effect.Leaves tables after left) (hr : ∀ rows fault, reply ≠ .rows rows fault) :
      Serves E r tables reply effect left
  | refused {reply : Reply} (hr : ∀ rows fault, reply ≠ .rows rows fault) :
      Serves E r tables reply .none tables

theorem serves_rows {E : Engine} {r : Request} {tables left : Tables} {s : Statement}
    {effect : Effect} (hs : Statement.read r.sql = some s) (rows : Table)
    (fault : Option ClientFault) :
    Serves E r tables (.rows rows fault) effect left ↔
      ∃ now after all, Executes { E with now } r.params tables s after all ∧ rows.Begins all ∧
        effect.Leaves tables after left ∧ (fault = none → rows = all ∧ effect = .whole) := by
  constructor
  · intro h
    cases h with
    | rows now hr he hb hl hf =>
      obtain rfl := Option.some.inj (hs.symm.trans hr)
      exact ⟨now, _, _, he, hb, hl, hf⟩
    | lost _ _ _ _ hr => exact absurd rfl (hr rows fault)
    | refused hr => exact absurd rfl (hr rows fault)
  · rintro ⟨now, after, all, he, hb, hl, hf⟩
    exact .rows now hs he hb hl hf

/-- The exchange ends with a value, and with it the tables are others. -/
inductive Runs (E : Engine) {α : Type} : Exchange α → Tables → α → Tables → Prop where
  | done (a : α) (tables : Tables) : Runs E (.done a) tables a tables
  | note (e : Log.Entry) {rest : Exchange α} {tables left : Tables} {a : α}
      (h : Runs E rest tables a left) : Runs E (.note e rest) tables a left
  | ask {r : Request} {next : Reply → Exchange α} {reply : Reply} {effect : Effect}
      {tables after left : Tables} {a : α} (hs : Serves E r tables reply effect after)
      (h : Runs E (next reply) after a left) : Runs E (.ask r next) tables a left

section

variable {E : Engine} {α β : Type}

theorem runs_done (a b : α) (tables left : Tables) :
    Runs E (.done a) tables b left ↔ b = a ∧ left = tables := by
  constructor
  · intro h
    cases h
    exact ⟨rfl, rfl⟩
  · rintro ⟨rfl, rfl⟩
    exact .done _ _

theorem runs_note (e : Log.Entry) (rest : Exchange α) (tables left : Tables) (a : α) :
    Runs E (.note e rest) tables a left ↔ Runs E rest tables a left := by
  constructor
  · intro h
    cases h with
    | note _ h => exact h
  · exact .note e

theorem runs_ask (r : Request) (next : Reply → Exchange α) (tables left : Tables) (a : α) :
    Runs E (.ask r next) tables a left ↔
      ∃ reply effect after, Serves E r tables reply effect after ∧
        Runs E (next reply) after a left := by
  constructor
  · intro h
    cases h with
    | ask hs h => exact ⟨_, _, _, hs, h⟩
  · rintro ⟨_, _, _, hs, h⟩
    exact .ask hs h

theorem runs_bind (x : Exchange α) (f : α → Exchange β) (tables left : Tables) (b : β) :
    Runs E (x.bind f) tables b left ↔
      ∃ a after, Runs E x tables a after ∧ Runs E (f a) after b left := by
  induction x generalizing tables with
  | done a =>
    rw [Exchange.bind]
    simp only [runs_done]
    constructor
    · exact fun h => ⟨a, tables, ⟨rfl, rfl⟩, h⟩
    · rintro ⟨_, _, ⟨rfl, rfl⟩, h⟩
      exact h
  | note e rest ih =>
    rw [Exchange.bind, runs_note, ih]
    simp only [runs_note]
  | ask r next ih =>
    rw [Exchange.bind, runs_ask]
    simp only [ih, runs_ask]
    constructor
    · rintro ⟨reply, effect, after, hs, a, between, hn, hf⟩
      exact ⟨a, between, ⟨reply, effect, after, hs, hn⟩, hf⟩
    · rintro ⟨a, between, ⟨reply, effect, after, hs, hn⟩, hf⟩
      exact ⟨reply, effect, after, hs, a, between, hn, hf⟩

theorem runs_play {x : Exchange α} {tables left : Tables} {a : α} (h : Runs E x tables a left) :
    ∃ replies, ∀ otherwise, (x.play otherwise replies).value = a := by
  induction h with
  | done a tables => exact ⟨[], fun _ => rfl⟩
  | note e _ ih =>
    obtain ⟨replies, h⟩ := ih
    exact ⟨replies, h⟩
  | @ask r next reply _ _ _ _ _ _ _ ih =>
    obtain ⟨replies, h⟩ := ih
    exact ⟨reply :: replies, h⟩

end

def Succeeds (E : Engine) {ε α : Type} (x : ExceptT ε Exchange α) (tables : Tables) (a : α)
    (left : Tables) : Prop :=
  Runs E x.run tables (.ok a) left

section

variable {E : Engine} {ε α β : Type} {tables left : Tables}

theorem succeeds_result (r : Except ε α) (a : α) :
    Succeeds E (ExceptT.mk (pure r) : ExceptT ε Exchange α) tables a left ↔
      r = .ok a ∧ left = tables := by
  refine (runs_done r (.ok a) tables left).trans ?_
  rw [eq_comm]

theorem succeeds_pure (a b : α) :
    Succeeds E (pure a : ExceptT ε Exchange α) tables b left ↔ a = b ∧ left = tables := by
  refine (succeeds_result (.ok a) b).trans ?_
  rw [Except.ok.injEq]

theorem succeeds_bind (x : ExceptT ε Exchange α) (f : α → ExceptT ε Exchange β) (b : β) :
    Succeeds E (x >>= f) tables b left ↔
      ∃ a after, Succeeds E x tables a after ∧ Succeeds E (f a) after b left := by
  refine (runs_bind x.run (ExceptT.bindCont f) tables left (.ok b)).trans ?_
  constructor
  · rintro ⟨r, after, hx, hf⟩
    cases r with
    | error e => exact absurd ((runs_done _ _ _ _).mp hf).1 (by simp)
    | ok a => exact ⟨a, after, hx, hf⟩
  · rintro ⟨a, after, hx, hf⟩
    exact ⟨.ok a, after, hx, hf⟩

theorem succeeds_note (e : Log.Entry) (u : Unit) :
    Succeeds E (Operation.note e) tables u left ↔ left = tables := by
  refine (runs_note e _ tables left _).trans ((runs_done _ _ _ _).trans ?_)
  simp

theorem succeeds_compile (r : Except CompileError α) (a : α) :
    Succeeds E (Operation.compile r) tables a left ↔ r = .ok a ∧ left = tables := by
  refine (succeeds_result (r.mapError StoreError.compile) a).trans ?_
  cases r <;> simp [Except.mapError]

theorem succeeds_within (seconds : Nat) (call : Call α) (a : α) :
    Succeeds E (Operation.within seconds call) tables a left ↔
      seconds ≠ 0 ∧ Succeeds E call tables a left := by
  have hlate (t l : Tables) : ¬Succeeds E (Operation.timedOut seconds) t a l := by
    intro h
    obtain ⟨_, _, _, h⟩ := (succeeds_bind _ _ _).mp h
    exact absurd ((succeeds_result _ _).mp h).1 (by simp)
  have hfail (e : StoreError) (t l : Tables) :
      ¬Succeeds E (Operation.lift (.error e) : Operation α) t a l := by
    intro h
    exact absurd ((succeeds_result _ _).mp h).1 (by simp)
  have htime (x : Operation α) (t l : Tables) :
      Succeeds E (if seconds = 0 then Operation.timedOut seconds else x) t a l ↔
        seconds ≠ 0 ∧ Succeeds E x t a l := by
    by_cases hz : seconds = 0
    · simp [hz, hz ▸ hlate t l]
    · simp [hz]
  have hcall (r : Except ClientFault α) (t l : Tables) :
      Succeeds E (ExceptT.mk do return .ok (← call.run) : Operation (Except ClientFault α)) t r l ↔
        Runs E call.run t r l := by
    refine (runs_bind call.run _ t l (Except.ok r)).trans ?_
    constructor
    · rintro ⟨s, after, hs, h⟩
      obtain ⟨hr, rfl⟩ := (runs_done _ _ _ _).mp h
      obtain rfl := Except.ok.inj hr
      exact hs
    · exact fun h => ⟨r, l, h, .done _ _⟩
  rw [Operation.within, succeeds_bind]
  constructor
  · rintro ⟨r, after, hr, h⟩
    rw [hcall] at hr
    match r with
    | .ok b =>
      obtain ⟨hz, h⟩ := (htime (pure b) _ _).mp h
      obtain ⟨rfl, rfl⟩ := (succeeds_pure _ _).mp h
      exact ⟨hz, hr⟩
    | .error .silence => exact absurd h (hlate _ _)
    | .error .unboundArgument | .error .unboundFields => exact absurd h (hfail _ _ _)
    | .error .noRows | .error (.badReply _) | .error (.unreachable _) =>
      exact absurd ((htime _ _ _).mp h).2 (hfail _ _ _)
  · rintro ⟨hz, h⟩
    exact ⟨.ok a, left, (hcall _ _ _).mpr h,
      (htime (pure a) _ _).mpr ⟨hz, (succeeds_pure _ _).mpr ⟨rfl, rfl⟩⟩⟩

theorem succeeds_send {sql : String} (hv : Verbatim sql) (params : Params) (fetches : Bool)
    (r : Table × Option ClientFault) :
    Succeeds E (Call.send sql params fetches) tables r left ↔
      ∃ effect, Serves E ⟨sql, params, fetches⟩ tables (.rows r.1 r.2) effect left := by
  have ht (reply : Reply) : reply.table? = .ok r ↔ reply = .rows r.1 r.2 := by
    cases reply <;> simp [Reply.table?, Prod.ext_iff]
  rw [Call.send, succeeds_bind]
  constructor
  · rintro ⟨text, after, hl, h⟩
    obtain ⟨he, rfl⟩ := (succeeds_result _ _).mp hl
    obtain rfl := Except.ok.inj ((expand_verbatim hv).symm.trans he)
    obtain ⟨reply, effect, after, hs, hd⟩ := (runs_ask _ _ _ _ _).mp h
    obtain ⟨hr, rfl⟩ := (runs_done _ _ _ _).mp hd
    rw [(ht reply).mp hr.symm] at hs
    exact ⟨effect, hs⟩
  · rintro ⟨effect, hs⟩
    refine ⟨sql, tables, (succeeds_result _ _).mpr ⟨expand_verbatim hv, rfl⟩, ?_⟩
    exact .ask hs ((runs_done _ _ _ _).mpr ⟨((ht _).mpr rfl).symm, rfl⟩)

theorem succeeds_execute {q : Query} (hv : Verbatim q.sql) (u : Unit) :
    Succeeds E (Call.execute q) tables u left ↔
      ∃ rows effect, Serves E ⟨q.sql, q.params, false⟩ tables (.rows rows none) effect left := by
  refine (succeeds_bind _ _ _).trans ?_
  constructor
  · rintro ⟨⟨rows, fault⟩, after, hs, h⟩
    cases fault with
    | none =>
      obtain ⟨_, rfl⟩ := (succeeds_pure _ _).mp h
      exact ⟨rows, (succeeds_send hv _ _ _).mp hs⟩
    | some f => exact absurd ((succeeds_result _ _).mp h).1 (by simp)
  · rintro ⟨rows, hs⟩
    exact ⟨(rows, none), left, (succeeds_send hv _ _ _).mpr hs, (succeeds_pure _ _).mpr ⟨rfl, rfl⟩⟩

theorem execute_succeeds (q : Query) {s : Statement} (hv : Verbatim q.sql)
    (hs : Statement.read q.sql = some s) (u : Unit) :
    Succeeds E (Call.execute q) tables u left ↔
      ∃ now all, Executes { E with now } q.params tables s left all := by
  rw [succeeds_execute hv]
  simp only [serves_rows (r := ⟨q.sql, q.params, false⟩) hs]
  constructor
  · rintro ⟨_, _, now, after, all, he, _, hl, hf⟩
    obtain ⟨_, rfl⟩ := hf trivial
    cases hl
    exact ⟨now, all, he⟩
  · rintro ⟨now, all, he⟩
    exact ⟨all, .whole, now, left, all, he, .whole all, .whole, fun _ => ⟨rfl, rfl⟩⟩

theorem succeeds_stream (kind : Table → Option (List α)) {q : Query} (hv : Verbatim q.sql)
    (r : List α × Option ClientFault) :
    Succeeds E (Call.stream kind q) tables r left ↔
      ∃ t effect, kind t = some r.1 ∧
        Serves E ⟨q.sql, q.params, true⟩ tables (.rows t r.2) effect left := by
  refine (succeeds_bind _ _ _).trans ?_
  constructor
  · rintro ⟨⟨t, fault⟩, after, hs, h⟩
    obtain ⟨effect, hs⟩ := (succeeds_send hv _ _ _).mp hs
    cases hk : kind t with
    | none =>
      simp only [hk] at h
      exact absurd ((succeeds_result _ _).mp h).1 (by simp)
    | some rows =>
      simp only [hk] at h
      obtain ⟨rfl, rfl⟩ := (succeeds_pure _ _).mp h
      exact ⟨t, effect, hk, hs⟩
  · rintro ⟨t, effect, hk, hs⟩
    refine ⟨(t, r.2), left, (succeeds_send hv _ _ _).mpr ⟨effect, hs⟩, ?_⟩
    simp only [hk]
    exact (succeeds_pure _ _).mpr ⟨rfl, rfl⟩

theorem succeeds_fetch_optional (kind : Table → Option (List α)) {q : Query}
    (hv : Verbatim q.sql) (row : α) :
    Succeeds E (Call.fetchOptional kind q) tables (some row) left ↔
      ∃ t rest fault effect, kind t = some (row :: rest) ∧
        Serves E ⟨q.sql, q.params, true⟩ tables (.rows t fault) effect left := by
  refine (succeeds_bind _ _ _).trans ?_
  constructor
  · rintro ⟨⟨rows, fault⟩, after, hs, h⟩
    obtain ⟨t, effect, hk, hs⟩ := (succeeds_stream kind hv _).mp hs
    match rows, fault with
    | r :: rest, fault =>
      obtain ⟨he, rfl⟩ := (succeeds_pure _ _).mp h
      obtain rfl := Option.some.inj he
      exact ⟨t, rest, fault, effect, hk, hs⟩
    | [], none => exact absurd ((succeeds_pure _ _).mp h).1 (by simp)
    | [], some f => exact absurd ((succeeds_result _ _).mp h).1 (by simp)
  · rintro ⟨t, rest, fault, effect, hk, hs⟩
    exact ⟨(row :: rest, fault), left, (succeeds_stream kind hv _).mpr ⟨t, effect, hk, hs⟩,
      (succeeds_pure _ _).mpr ⟨rfl, rfl⟩⟩

theorem succeeds_fetch_one (kind : Table → Option (List α)) {q : Query} (hv : Verbatim q.sql)
    (row : α) :
    Succeeds E (Call.fetchOne kind q) tables row left ↔
      ∃ t rest fault effect, kind t = some (row :: rest) ∧
        Serves E ⟨q.sql, q.params, true⟩ tables (.rows t fault) effect left := by
  refine Iff.trans ?_ (succeeds_fetch_optional kind hv row)
  refine (succeeds_bind _ _ _).trans ?_
  constructor
  · rintro ⟨r, after, hs, h⟩
    cases r with
    | none => exact absurd ((succeeds_result _ _).mp h).1 (by simp)
    | some a =>
      obtain ⟨rfl, rfl⟩ := (succeeds_pure _ _).mp h
      exact hs
  · exact fun hs => ⟨some row, left, hs, (succeeds_pure _ _).mpr ⟨rfl, rfl⟩⟩

theorem fetch_count_succeeds (q : Query) {condition : Formula RowTest} (hv : Verbatim q.sql)
    (hs : Statement.read q.sql = some (.count condition)) (n : Nat) :
    Succeeds E (Call.fetchOne Table.numbers? q) tables n left ↔
      n = (tables.members.filter fun m =>
        condition.value (RowTest.memberTruth q.params m) = some true).dedup.length ∧
      left = tables := by
  rw [succeeds_fetch_one _ hv]
  simp only [serves_rows (r := ⟨q.sql, q.params, true⟩) hs]
  constructor
  · rintro ⟨t, rest, fault, effect, hk, now, after, all, he, hb, hl, _⟩
    cases he with
    | count => exact ⟨(List.cons_prefix_cons.mp (begins_numbers hb hk)).1, leaves_same hl⟩
  · rintro ⟨rfl, rfl⟩
    exact ⟨_, [], none, .whole, rfl, E.now, _, _, .count condition, .whole _, .whole,
      fun _ => ⟨rfl, rfl⟩⟩

end

end CohortQuery.Store
