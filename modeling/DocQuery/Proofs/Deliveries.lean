import DocQuery.Proofs.Reductions
import DocQuery.Proofs.Replies
import DocQuery.Runtime.Regex.Engine
import Mathlib.Control.Monad.Basic

/-!
# One query, one command

A query that compiles sends one command, and one that does not sends none. What it delivers follows
from the reply of the store and from what the connection loses of the reply. A read delivers a row
for each document that arrives (`Connection.Arrives`), so also for those that arrive before the
delivery breaks off. Every other query delivers one row with its answer, or an error and no row
(`Connection.Answers`), also where it is computed from documents that arrive one by one.

The main theorem, `Database.execute_once`, says this for every query on every handle of a store,
over a sound connection or a faulty one. One lemma for the plans of each of the two kinds says what
running them delivers (`Database.run_read`, `Database.run_answer`), and that running a plan sends
its operation and nothing else is `Database.store_run`.
-/

namespace DocQuery

/-! ### What arrives of a reply -/

namespace Connection

/-- How many of the documents that were inserted are not acknowledged. -/
def unacknowledged (c : Connection) : Nat := (c.faults.map (·.shortAck)).getD 0

/-- After how many documents a delivery breaks off, if there are more, and how it ends then. -/
def breaksOff? (c : Connection) : Option (Nat × Error) := c.faults.bind (·.breakOff)

/-- The documents that arrive of a reply, in order, and how their delivery ends. -/
inductive Arrives (c : Connection) : Reply → List Document → Except Error Unit → Prop
  /-- Of a refusal nothing arrives but the cause. -/
  | refused (cause : StoreError) : Arrives c (.error cause) [] (.error (.store cause))
  /-- All documents arrive where the delivery does not break off before the last. -/
  | complete {ds : List Document} (h : ∀ n e, c.breaksOff? = some (n, e) → ds.length ≤ n) :
      Arrives c (.ok (.documents ds)) ds (.ok ())
  /-- The first documents arrive, and then an error of the connection. -/
  | brokenOff {ds : List Document} {n : Nat} {e : Error} (hbreak : c.breaksOff? = some (n, e))
      (hmore : n < ds.length) : Arrives c (.ok (.documents ds)) (ds.take n) (.error e)

/-- The value that a plan other than that of a read answers on a reply, or the error in its
place. -/
inductive Answers (c : Connection) : QueryPlan → Reply → Except Error Value → Prop
  /-- A refusal is passed on. -/
  | refused (plan : QueryPlan) (cause : StoreError) :
      Answers c plan (.error cause) (.error (.store cause))
  | inserted {command : InsertCommand} {n : Nat}
      (h : n - c.unacknowledged = command.documents.length) :
      Answers c (.insert command) (.ok (.number n))
        (.ok (.int64 (Int64.ofNat command.documents.length)))
  /-- An insertion fails with both numbers where not all its documents are acknowledged. -/
  | insertFailed {command : InsertCommand} {n : Nat}
      (h : n - c.unacknowledged ≠ command.documents.length) :
      Answers c (.insert command) (.ok (.number n))
        (.error (.insertFailed command.documents.length (n - c.unacknowledged)))
  | updated (command : UpdateCommand) (reply : UpdateReply) :
      Answers c (.update command) (.ok (.updated reply)) (.ok (.int64 (Int64.ofNat reply.modified)))
  | deleted (command : DeleteCommand) (n : Nat) :
      Answers c (.delete command) (.ok (.number n)) (.ok (.int64 (Int64.ofNat n)))
  | counted (command : CountCommand) (n : Nat) :
      Answers c (.count command) (.ok (.number n)) (.ok (.int64 (Int64.ofNat n)))
  /-- The rows of a join are counted once all have arrived. -/
  | joinCounted {command : AggregateCommand} {reply : Reply} {ds : List Document}
      {ending : Except Error Unit} (h : c.Arrives reply ds ending) :
      Answers c (.joinCount command) reply (ending.map fun () => .int64 (Int64.ofNat ds.length))
  /-- The value of a reduction is read once all documents have arrived. -/
  | reduced {command : AggregateCommand} {reply : Reply} {ds : List Document}
      {ending : Except Error Unit} (h : c.Arrives reply ds ending) :
      Answers c (.group command) reply (ending.map fun () => Database.reducedValue ds)

/-- What a connection delivers of the documents of the store is what arrives of them. -/
private theorem arrives_deliver (c : Connection) (reply : Except StoreError (List Document)) :
    c.Arrives (reply.map .documents) (c.deliver (reply.mapError .store)).documents
      (c.deliver (reply.mapError .store)).ending := by
  rcases reply with cause | ds
  · exact .refused cause
  · change c.Arrives (.ok (.documents ds)) (c.deliver (.ok ds)).documents
      (c.deliver (.ok ds)).ending
    rw [deliver]
    rcases hbreak : c.faults.bind (·.breakOff) with _ | ⟨n, e⟩
    · exact .complete fun n e hn => by cases hbreak.symm.trans hn
    · dsimp only
      split
      · next hmore => exact .brokenOff hbreak hmore
      · next hmore =>
        refine .complete fun m e' hm => ?_
        obtain ⟨rfl, rfl⟩ := Prod.mk.inj (Option.some.inj (hbreak.symm.trans hm))
        exact Nat.le_of_not_lt hmore

end Connection

/-! ### What a plan delivers -/

/-- The command of a plan. -/
def QueryPlan.command : QueryPlan → Command
  | .insert c => .insert c
  | .find _ c => .find c
  | .join c _ => .aggregate c
  | .update c => .update c
  | .delete c => .delete c
  | .count c => .count c
  | .joinCount c => .aggregate c
  | .group c => .aggregate c

/-- The operation of a plan is recorded as its command. -/
private theorem QueryPlan.command_operation (plan : QueryPlan) (fresh : Nat → ObjectId) :
    (plan.operation fresh).command = plan.command := by
  cases plan <;> rfl

/-- How a plan makes rows of documents, if it is that of a read. -/
def QueryPlan.row? : QueryPlan → Option (Document → Row)
  | .find schema _ => some (Row.ofDocument schema)
  | .join _ layout => some (Row.ofJoined layout)
  | _ => none

/-- How a read makes rows of documents: it puts each under the name of the collection, or, with
joins, reads it in the layout of these. -/
def Query.Wraps (q : Query) (row : Document → Row) : Prop :=
  match q.joins with
  | [] => row = Row.ofDocument q.schema
  | _ :: _ => ∃ ls, Join.lookups q.joins = .ok ls ∧ row = Row.ofJoined (.ofLookups ls)

/-- The plan of a read makes rows as the read says. -/
theorem Query.wraps_of_read {q : Query} {plan : QueryPlan} (hread : q.action = .read)
    (h : q.compile = .ok plan) : ∃ row, plan.row? = some row ∧ q.Wraps row := by
  rw [compile_of_read hread] at h
  rcases hjoins : q.joins with _ | ⟨j, js⟩
  · rw [QueryPlan.ofRead_plain hjoins] at h
    obtain ⟨sel, -, h⟩ := bind_eq_ok_iff.mp h
    obtain rfl := Except.ok.inj h
    exact ⟨Row.ofDocument q.schema, rfl, by rw [Wraps, hjoins]⟩
  · rw [QueryPlan.ofRead_joined (hjoins ▸ List.cons_ne_nil j js)] at h
    obtain ⟨ls, hls, h⟩ := bind_eq_ok_iff.mp h
    obtain ⟨sel, -, h⟩ := bind_eq_ok_iff.mp h
    obtain ⟨listed, -, h⟩ := bind_eq_ok_iff.mp h
    obtain rfl := Except.ok.inj h
    exact ⟨Row.ofJoined (.ofLookups ls), rfl, by rw [Wraps, hjoins]; exact ⟨ls, hjoins ▸ hls, rfl⟩⟩

/-- The plan of an aggregate makes no rows of documents. -/
private theorem QueryPlan.row?_of_ofAggregate {q : Query} {a : Aggregate} {plan : QueryPlan}
    (h : ofAggregate q a = .ok plan) : plan.row? = none := by
  rcases a with ⟨f, function⟩ | name
  · by_cases hcount : function = .count
    · subst hcount
      rcases hjoins : q.joins with _ | ⟨j, js⟩ <;> rw [ofAggregate, hjoins] at h
      · obtain ⟨filter, -, h⟩ := bind_eq_ok_iff.mp h
        obtain rfl := Except.ok.inj h
        rfl
      · obtain ⟨p, -, h⟩ := bind_eq_ok_iff.mp h
        obtain rfl := Except.ok.inj h
        rfl
    · obtain ⟨accumulator, b, path, filter, -, -, -, -, rfl⟩ := exists_reduction hcount h
      rfl
  · cases h

/-- The plan of a query other than a read makes no rows of documents. -/
private theorem Query.row?_of_ne_read {q : Query} {plan : QueryPlan} (hread : q.action ≠ .read)
    (h : q.compile = .ok plan) : plan.row? = none := by
  rw [compile] at h
  rcases haction : q.action with _ | _ | _ | _ | a | name <;> rw [haction] at h
  · obtain ⟨documents, -, h⟩ := bind_eq_ok_iff.mp h
    obtain rfl := Except.ok.inj h
    rfl
  · exact absurd haction hread
  · obtain ⟨filter, -, h⟩ := bind_eq_ok_iff.mp h
    obtain ⟨documents, -, h⟩ := bind_eq_ok_iff.mp h
    obtain rfl := Except.ok.inj h
    rfl
  · obtain ⟨limit, -, h⟩ := bind_eq_ok_iff.mp h
    obtain ⟨filter, -, h⟩ := bind_eq_ok_iff.mp h
    obtain rfl := Except.ok.inj h
    rfl
  · exact QueryPlan.row?_of_ofAggregate h
  · cases h

/-- The outcome of an answer: one row with the value, or the error and no row. -/
def Outcome.ofAnswer : Except Error Value → Outcome
  | .ok v => .single (.aggregate v)
  | .error e => .failure e

/-- Reducing what arrives answers once all has arrived, and otherwise fails as the delivery does. -/
theorem Outcome.reduce_eq (value : List Document → Value) (d : Delivery) :
    reduce (fun ds => .aggregate (value ds)) d =
      ofAnswer (d.ending.map fun () => value d.documents) := by
  rcases d with ⟨ds, e | _⟩ <;> rfl

namespace Database

section Run

variable [RegexEngine] (db : Database) (s : Server)

/-- The reply of the store to the operation of a plan. -/
def replyTo (plan : QueryPlan) : Reply :=
  (s.store.perform (.command db.connection.handle
    (plan.operation fun i => Server.identity (s.issued + i)))).1

/-- **The plan of a read** delivers a row for each document that arrives. -/
theorem run_read {plan : QueryPlan} {row : Document → Row} (hrow : plan.row? = some row) :
    ∃ ds ending, db.connection.Arrives (db.replyTo s plan) ds ending ∧
      (db.run plan s).1 = ⟨ds.map row, ending⟩ := by
  cases plan with
  | find schema command =>
    obtain rfl := Option.some.inj hrow
    exact ⟨_, _, db.connection.arrives_deliver _, rfl⟩
  | join command layout =>
    obtain rfl := Option.some.inj hrow
    exact ⟨_, _, db.connection.arrives_deliver _, rfl⟩
  | _ => cases hrow

/-- **Any other plan** delivers its answer. -/
theorem run_answer {plan : QueryPlan} (hrow : plan.row? = none) :
    ∃ answer, db.connection.Answers plan (db.replyTo s plan) answer ∧
      (db.run plan s).1 = .ofAnswer answer := by
  cases plan with
  | find schema command => cases hrow
  | join command layout => cases hrow
  | insert command =>
    let fresh := fun i => Server.identity (s.issued + i)
    have hserved : db.replyTo s (.insert command) =
        (s.store.insert db.connection.handle fresh command).1.map .number := rfl
    have hrun : (db.run (.insert command) s).1 = .ofInsert command.documents.length
        (((s.store.insert db.connection.handle fresh command).1.mapError .store).map
          (· - db.connection.unacknowledged)) := rfl
    rw [hserved, hrun]
    rcases (s.store.insert db.connection.handle fresh command).1 with cause | n
    · exact ⟨_, .refused _ cause, rfl⟩
    · by_cases hall : n - db.connection.unacknowledged = command.documents.length
      · exact ⟨_, .inserted hall,
          (if_pos hall).trans (congrArg (fun m => Outcome.single (.ofCount m)) hall)⟩
      · exact ⟨_, .insertFailed hall, if_neg hall⟩
  | update command =>
    have hserved : db.replyTo s (.update command) =
        (s.store.update db.connection.handle command).1.map .updated := rfl
    have hrun : (db.run (.update command) s).1 = .ofCount
        (((s.store.update db.connection.handle command).1.mapError .store).map (·.modified)) := rfl
    rw [hserved, hrun]
    rcases (s.store.update db.connection.handle command).1 with cause | reply
    · exact ⟨_, .refused _ cause, rfl⟩
    · exact ⟨_, .updated command reply, rfl⟩
  | delete command =>
    have hserved : db.replyTo s (.delete command) =
        (s.store.delete db.connection.handle command).1.map .number := rfl
    have hrun : (db.run (.delete command) s).1 =
        .ofCount ((s.store.delete db.connection.handle command).1.mapError .store) := rfl
    rw [hserved, hrun]
    rcases (s.store.delete db.connection.handle command).1 with cause | n
    · exact ⟨_, .refused _ cause, rfl⟩
    · exact ⟨_, .deleted command n, rfl⟩
  | count command =>
    have hserved : db.replyTo s (.count command) =
        (s.store.count db.connection.handle command).1.map .number := rfl
    have hrun : (db.run (.count command) s).1 =
        .ofCount ((s.store.count db.connection.handle command).1.mapError .store) := rfl
    rw [hserved, hrun]
    rcases (s.store.count db.connection.handle command).1 with cause | n
    · exact ⟨_, .refused _ cause, rfl⟩
    · exact ⟨_, .counted command n, rfl⟩
  | joinCount command =>
    exact ⟨_, .joinCounted (db.connection.arrives_deliver _),
      Outcome.reduce_eq (fun ds => .int64 (Int64.ofNat ds.length)) _⟩
  | group command =>
    exact ⟨_, .reduced (db.connection.arrives_deliver _), Outcome.reduce_eq _ _⟩

end Run

/-- **One query, one command.** A query that does not compile fails with the error of the compiler,
sends nothing and delivers nothing. One that compiles has the store serve one operation and nothing
else, and the journal gains exactly the compiled command. A read then delivers a row for each
document that arrives of the reply, in order, and ends as the delivery does. Any other query
delivers one row with the value that it answers, or fails without a row. -/
theorem execute_once [RegexEngine] (db : Database) (q : Query) (s : Server) :
    (∀ e, q.compile = .error e → db.execute q s = (.failure e, s)) ∧
    ∀ plan, q.compile = .ok plan → ∃ o : Operation, o.command = plan.command ∧
      let served := s.store.perform (.command db.connection.handle o)
      let result := db.execute q s
      result.2.store = served.2 ∧
      result.2.store.journal = s.store.journal ++ [plan.command] ∧
      (q.action = .read → ∃ row ds ending, q.Wraps row ∧
        db.connection.Arrives served.1 ds ending ∧ result.1 = ⟨ds.map row, ending⟩) ∧
      (q.action ≠ .read → ∃ answer, db.connection.Answers plan served.1 answer ∧
        result.1 = .ofAnswer answer) := by
  refine ⟨fun e he => by rw [execute, he], fun plan hplan => ?_⟩
  have hexecute : db.execute q s = db.run plan s := by rw [execute, hplan]
  refine ⟨plan.operation fun i => Server.identity (s.issued + i), plan.command_operation _, ?_⟩
  intro served result
  have hresult : result = db.run plan s := hexecute
  have hstore : result.2.store = served.2 := by rw [hresult, store_run]
  refine ⟨hstore, ?_, fun hread => ?_, fun hread => ?_⟩
  · rw [hstore, Store.journal_perform_command, plan.command_operation]
  · obtain ⟨row, hrow, hwraps⟩ := Query.wraps_of_read hread hplan
    obtain ⟨ds, ending, harrives, hrun⟩ := db.run_read s hrow
    exact ⟨row, ds, ending, hwraps, harrives, by rw [hresult, hrun]⟩
  · obtain ⟨answer, hanswer, hrun⟩ := db.run_answer s (Query.row?_of_ne_read hread hplan)
    exact ⟨answer, hanswer, by rw [hresult, hrun]⟩

/-- A count of the notes that have an author. -/
def authoredCount : Query where
  schema := "notes"
  action := .aggregate (.field (.identity "notes") .count)
  joins := [.inner "authors" (.identity "authors") (.single (.name "by") "notes")]

/-- A server with two notes of one author. -/
def authoredServer : Server :=
  let notes : List Document :=
    [[(idKey, .int32 1), ("by", .int32 7)], [(idKey, .int32 2), ("by", .int32 7)]]
  ⟨⟨⟨[("notes", ⟨notes, []⟩), ("authors", ⟨[[(idKey, .int32 7)]], []⟩)]⟩, [], []⟩, 0⟩

attribute [local instance] Runtime.engine

/-- Over a connection that breaks off after one document, counting two joined rows fails and does
not report one. -/
theorem execute_once_authoredCount :
    let db := ofConnection (.faulty ⟨0, some (1, .missingHosts), none, none⟩)
    ∃ plan, authoredCount.compile = .ok plan ∧
      (db.execute authoredCount authoredServer).1 = .failure .missingHosts ∧
      (db.execute authoredCount authoredServer).2.store.journal = [plan.command] := by
  intro db
  obtain ⟨plan, hplan⟩ : ∃ plan, authoredCount.compile = .ok plan := ⟨_, rfl⟩
  obtain ⟨o, ho, -, hjournal, -, hrest⟩ :=
    (execute_once db authoredCount authoredServer).2 plan hplan
  obtain ⟨answer, hanswer, hresult⟩ := hrest nofun
  refine ⟨plan, hplan, ?_, hjournal⟩
  have hfails : (db.execute authoredCount authoredServer).1.ending = .error .missingHosts := by
    decide +kernel
  -- An answer that is an error comes without a row.
  rcases answer with e | v
  · rw [hresult] at hfails ⊢
    obtain rfl := Except.error.inj hfails
    rfl
  · rw [hresult] at hfails
    cases hfails

end Database

end DocQuery
