import Sqld.Trans
import Sqld.TxnEngine

/-!
# Transactions on One Connection

`Trans::is_active()` is a flag of one object; whether the connection has a transaction open,
and what opened it, are facts of the engine (`txnEngine`). This module follows both over any
number of `Trans` and `Req` objects on one connection, with a ghost `owner`: the `Trans`
whose `BEGIN` opened the transaction that is open now. A transaction that a `SAVEPOINT` of a
`Req` opened is no `Trans`'s.

What the `Req` objects run is a condition on the statements they compile, each read as
sqlite reads it (`Sys.CompilesOnly`). For the flag to tell whose the transaction is, no `Req`
compiles a `BEGIN`, `COMMIT`, `END` or `ROLLBACK`; its savepoints are free.

## Main definitions
- `CommandText`: a text that is one command of `Trans`.
- `compiledOnly`: every statement some calls compiled from a text runs an allowed command.
- `Sys`, `SysOp`, `Sys.run`, `Sys.Reach`: the objects on one connection and their calls.
- `Sys.ActiveIffOwner`: every `Trans` is active exactly when the open transaction is one its
  `BEGIN` opened; `Sys.OwnerActive`, its half that survives the engine's own rollback.
- `Sys.Inv`: what every reachable state keeps, on either engine.
- `Sys.Stale`: a `Trans` active while no transaction is open.

## Main results
- `command_txn`: what a `begin`, `commit` or `abort` does to the flag and the transaction.
- `op_txn`: what a call of a `Req` that compiles only allowed statements does to them.
- `txn_autoRollback_stale`: with the engine's own rollback, a reachable state breaks
  `Sys.ActiveIffOwner`.
- `txn_active_iff_owner`: without it, `Sys.ActiveIffOwner` holds in every reachable state,
  and a `begin`, `commit` or `abort` that raises changes neither the flag nor the transaction.
- `txn_owner_active`: with or without it, `Sys.OwnerActive` holds in every reachable state.
- `txn_stale_stuck`: a stale `Trans` stays stale over any run in which no other `Trans`
  begins and no `Req` compiles a statement that opens a transaction.
-/

namespace Sqld

/-! ## §1 One command of `Trans` through `Req::exec` -/

section Command

variable {c : Conn} {w w' : World TxnDb} {ok : TxnCmd → Bool}

@[simp] theorem finalize_txn_state (b : Bool) (st : Stmt) :
    (w.finalize (txnEngine b) st).state = w.state.finalize st := rfl

@[simp] theorem finalize_txn_txn (s : TxnDb) (st : Stmt) : (s.finalize st).txn = s.txn := rfl

theorem compile_txn {b : Bool} {sql : String} {pos : Nat} {a : Prepared}
    (h : w.compile (txnEngine b) c sql pos = (a, w')) :
    (w.state.prepare sql pos).2 = a ∧ (w.state.prepare sql pos).1 = w'.state := by
  simp only [World.compile, World.prepare, Prod.mk.injEq] at h
  exact ⟨h.1, by rw [← h.2]; rfl⟩

theorem step_txn {b : Bool} {st : Stmt} {code : Code} (h : w.step (txnEngine b) st = (code, w')) :
    (w.state.step b st).2 = code ∧ (w.state.step b st).1 = w'.state := by
  simp only [World.step, Prod.mk.injEq] at h
  exact ⟨h.1, by rw [← h.2]; rfl⟩

/-- A text that is one command of `Trans`, compiled whole. -/
structure CommandText (sql : String) (cmd : TxnCmd) : Prop where
  classify_eq : classify sql 0 = cmd
  ofTrans : cmd.ofTrans = true
  hasSql : hasSql sql 0 = true
  length_eq : stmtLength sql 0 = sql.utf8ByteSize
  pos : 0 < sql.utf8ByteSize

theorem CommandText.cmd_ne {sql : String} {cmd : TxnCmd} (h : CommandText sql cmd) :
    cmd ≠ .other := fun he => by simpa [he, TxnCmd.ofTrans] using h.ofTrans

theorem commandText_begin : CommandText "BEGIN;" .begin :=
  ⟨by decide, rfl, by decide, by decide, by decide⟩
theorem commandText_commit : CommandText "COMMIT;" .commit :=
  ⟨by decide, rfl, by decide, by decide, by decide⟩
theorem commandText_rollback : CommandText "ROLLBACK;" .rollback :=
  ⟨by decide, rfl, by decide, by decide, by decide⟩

/-- Compiling a command text from its start: the engine hands out its next handle, which
    runs `cmd`, on top of what it held, and the statement is the whole text. -/
theorem compile_command {sql : String} {cmd : TxnCmd} (hsql : CommandText sql cmd) {b : Bool}
    {stmt : Option Stmt} {used : Nat} (hc : w.compile (txnEngine b) c sql 0 = (.ok stmt used, w')) :
    stmt = some w.state.next ∧ used = sql.utf8ByteSize ∧
      w'.state.stmts = (w.state.next, cmd) :: w.state.stmts ∧ w'.state.txn = w.state.txn ∧
      w'.state.cmdOf w.state.next = cmd := by
  obtain ⟨hp, hw'⟩ := compile_txn hc
  obtain ⟨hst, hused, hstmts⟩ := TxnDb.prepare_sql hsql.hasSql hp
  rw [← hw', ← hsql.classify_eq, ← hsql.length_eq]
  exact ⟨hst, hused, hstmts, TxnDb.prepare_txn _ _, TxnDb.cmdOf_cons _ _ hstmts⟩

/-- A step of a command: never a row; DONE under the command's rule; any other code keeps
    the transaction, unless the engine rolls it back. -/
theorem step_command {a : Bool} {st : Stmt} {cmd : TxnCmd} {code : Code}
    (hk : w.state.cmdOf st = cmd) (hcmd : cmd ≠ .other)
    (hs : w.step (txnEngine a) st = (code, w')) :
    code ≠ sqliteRow ∧
      (code = sqliteDone → cmd.run w.state.txn = (w'.state.txn, sqliteDone)) ∧
      (code ≠ sqliteDone → Kept a w.state.txn w'.state.txn) ∧
      w'.state.stmts = w.state.stmts := by
  obtain ⟨hcode, hw'⟩ := step_txn hs
  subst hcode
  rw [← hw']
  obtain ⟨hrow, hdone, hother⟩ := TxnDb.answer_cmd hk hcmd
  refine ⟨hrow, fun hd => ?_, fun hd => ?_, rfl⟩
  · rw [TxnDb.step_done hd, ← hdone hd]
    exact Prod.ext rfl hd
  · rw [← hother hd]
    exact TxnDb.step_kept a st

/-- How `exec_select` on a fresh `Req` holding one command of `Trans` ends: the command ran
    to DONE under its rule and the stream is used up, or it raised and, once the `Req` is
    destroyed, the transaction is kept or ended by the engine. Either way the engine is left
    holding what it held. -/
theorem execSelect_command {a : Bool} {sql : String} {cmd : TxnCmd} (hsql : CommandText sql cmd)
    (hw : w.state.Holds ok) {n : Nat} {o}
    (h : Req.execSelect (txnEngine a) c n ⟨none, sql, 0, 0⟩ w = o) (hfin : o.Finished) :
    (∃ w', o = .ret 0 (⟨none, sql, sql.utf8ByteSize, 0⟩, w') ∧
      cmd.run w.state.txn = (w'.state.txn, sqliteDone) ∧ w'.state.Holds ok) ∨
    (∃ x r' w', o = .raise x (r', w') ∧
      Kept a w.state.txn (w'.release (txnEngine a) r'.stmt).state.txn ∧
      (w'.release (txnEngine a) r'.stmt).state.Holds ok) := by
  simp only [Req.execSelect, ne_eq, not_true_eq_false, if_false] at h
  obtain ⟨pos, w2, hsk, hstop⟩ := Req.execSelectLoop_cases _ _ h hfin
  simp only [World.release_none] at hsk
  dsimp only at hstop
  cases hsk with
  | refl =>
    cases hstop with
    | atEnd hend => exact absurd hsql.pos (Nat.not_lt.2 hend)
    | noSql _ hc => cases (compile_command hsql hc).1
    | row _ hc hs =>
      obtain ⟨⟨⟩, -, -, -, hk⟩ := compile_command hsql hc
      exact absurd rfl (step_command hk hsql.cmd_ne hs).1
    | compileError _ hc =>
      obtain ⟨hp, hw'⟩ := compile_txn hc
      have hst := TxnDb.prepare_error hp
      have hin := TxnDb.prepare_txn (s := w.state) sql 0
      rw [hw'] at hst hin
      exact .inr ⟨_, _, _, rfl, .inl hin, fun p hp => hw p (hst ▸ hp)⟩
    | stepError _ hc hs _ hdone =>
      obtain ⟨⟨⟩, -, hst, hin, hk⟩ := compile_command hsql hc
      obtain ⟨-, -, hin', hst'⟩ := step_command hk hsql.cmd_ne hs
      refine .inr ⟨_, _, _, rfl, ?_, TxnDb.holds_finalize_cons hw (hst'.trans hst)⟩
      rw [← hin]
      exact hin' hdone
  | done _ hc hs hsk =>
    obtain ⟨⟨⟩, rfl, hst, hin, hk⟩ := compile_command hsql hc
    obtain ⟨-, hrun, -, hst'⟩ := step_command hk hsql.cmd_ne hs
    rw [Nat.zero_add] at hsk
    cases hsk with
    | done hlt => exact absurd hlt (Nat.lt_irrefl _)
    | refl =>
      cases hstop with
      | atEnd =>
        refine .inl ⟨_, rfl, ?_, TxnDb.holds_finalize_cons hw (hst'.trans hst)⟩
        rw [← hin]
        exact hrun rfl
      | noSql hlt | row hlt | compileError hlt | stepError hlt => exact absurd hlt (Nat.lt_irrefl _)

/-- How `exec` on a fresh `Req` holding one command of `Trans` ends: as its `exec_select`
    does, for that reports no row. -/
theorem exec_command {a : Bool} {sql : String} {cmd : TxnCmd} (hsql : CommandText sql cmd)
    (hw : w.state.Holds ok) {n : Nat} {o}
    (h : Req.exec (txnEngine a) c n (Req.new.append sql) w = o) (hfin : o.Finished) :
    (∃ w', o = .ret () (⟨none, sql, sql.utf8ByteSize, 0⟩, w') ∧
      cmd.run w.state.txn = (w'.state.txn, sqliteDone) ∧ w'.state.Holds ok) ∨
    (∃ x r' w', o = .raise x (r', w') ∧
      Kept a w.state.txn (w'.release (txnEngine a) r'.stmt).state.txn ∧
      (w'.release (txnEngine a) r'.stmt).state.Holds ok) := by
  have hr : Req.new.append sql = ⟨none, sql, 0, 0⟩ := by simp [Req.new, Req.append]
  rw [hr, exec_eq_loop rfl] at h
  cases n with
  | zero => subst h; exact absurd hfin id
  | succ n =>
    rw [loop_succ] at h
    rcases hb : Req.execBody (txnEngine a) c n (⟨none, sql, 0, 0⟩, w) with t | o'
    · obtain ⟨k, s1, hx, -⟩ := execBody_next hb
      rcases execSelect_command hsql hw hx trivial with ⟨_, h', -⟩ | ⟨_, _, _, h', -⟩ <;>
        cases h'
    simp only [hb] at h
    subst h
    rcases execBody_exit hb with rfl | ⟨k, s1, hx, -⟩
    · rcases execSelect_command hsql hw rfl (by simpa using hfin) with
        ⟨w', ho, hrun, hok⟩ | ⟨x, r', w', ho, hin, hok⟩ <;> rw [ho]
      · exact .inl ⟨w', rfl, hrun, hok⟩
      · exact .inr ⟨x, r', w', rfl, hin, hok⟩
    · rcases execSelect_command hsql hw hx trivial with ⟨_, h', -⟩ | ⟨_, _, _, h', -⟩ <;>
        cases h'

/-- **A command of `Trans`.** A finished call leaves the engine holding what it held; when it
    returns, its guard let it through, the flag is `after` and the command ran to DONE under
    its rule; when it raises, the flag is kept, and so is the transaction unless the engine
    rolled it back. -/
theorem command_txn {a : Bool} {sql : String} {cmd : TxnCmd} (hsql : CommandText sql cmd)
    (hw : w.state.Holds ok) {n : Nat} {busy after : Bool} {msg : String} {t : Trans} {o}
    (h : Trans.command (txnEngine a) c n busy msg sql after t w = o) (hfin : o.Finished) :
    o.state.2.state.Holds ok ∧
    (∀ (t' : Trans) (w' : World TxnDb), o = .ret () (t', w') →
      t.active ≠ busy ∧ t' = ⟨after⟩ ∧ cmd.run w.state.txn = (w'.state.txn, sqliteDone)) ∧
    (∀ x (t' : Trans) (w' : World TxnDb), o = .raise x (t', w') →
      t' = t ∧ Kept a w.state.txn w'.state.txn) := by
  subst h
  rcases Trans.command_cases (e := txnEngine a) (c := c) n busy msg sql after t w with
    ⟨-, ho⟩ | ⟨hb, r', w', hx, ho⟩ | ⟨-, x, r', w', hx, ho⟩ | ⟨s, ho⟩ <;>
    rw [ho] <;> rw [ho] at hfin
  case inl =>
    exact ⟨hw, (fun _ _ h => by cases h), fun _ _ _ h => by cases h; exact ⟨rfl, .refl a _⟩⟩
  case inr.inl =>
    rcases exec_command hsql hw hx trivial with
      ⟨w'', ho', hrun, hok⟩ | ⟨_, _, _, ho', -⟩ <;> cases ho'
    exact ⟨hok, (fun _ _ h => by cases h; exact ⟨hb, rfl, hrun⟩), fun _ _ _ h => by cases h⟩
  case inr.inr.inl =>
    rcases exec_command hsql hw hx trivial with ⟨_, ho', -⟩ | ⟨_, _, _, ho', hin, hok⟩ <;>
      cases ho'
    simp only [Req.destroy, Req.finalize_eq]
    exact ⟨hok, (fun _ _ h => by cases h), fun _ _ _ h => by cases h; exact ⟨rfl, hin⟩⟩
  case inr.inr.inr => exact absurd hfin id

/-- With no transaction open, a command of `Trans` that cannot run to DONE outside one (its
    guard stops it, or it ends a transaction) raises, leaving the `Trans` as it was and no
    transaction open. -/
theorem command_raises_of_closed {a : Bool} {sql : String} {cmd : TxnCmd}
    (hsql : CommandText sql cmd) (hw : w.state.Holds ok) (hin : w.state.txn = .none)
    {n : Nat} {busy after : Bool} {msg : String} {t : Trans}
    (hno : t.active ≠ busy → ∀ x', cmd.run .none ≠ (x', sqliteDone)) {o}
    (h : Trans.command (txnEngine a) c n busy msg sql after t w = o) (hfin : o.Finished) :
    ∃ x w', o = .raise x (t, w') ∧ w'.state.txn = .none := by
  obtain ⟨-, hret, hraise⟩ := command_txn hsql hw h hfin
  rcases o with ⟨⟨⟩, t', w'⟩ | ⟨x, t', w'⟩ | _
  · obtain ⟨hb, -, hrun⟩ := hret _ _ rfl
    exact absurd (hin ▸ hrun) (hno hb _)
  · obtain ⟨rfl, hk⟩ := hraise _ _ _ rfl
    exact ⟨x, w', rfl, hk.of_none hin⟩
  · exact absurd hfin id

end Command

/-! ## §2 The calls of a `Req` -/

/-- The byte a compile that handed out a statement started from. -/
def Call.compiledFrom : Call → Option Nat
  | .prepare _ pos _ (.ok (some _) _) => some pos
  | _ => none

/-- Every statement the calls `calls` compiled from `sql` runs a command `ok` allows. -/
def compiledOnly (ok : TxnCmd → Bool) (sql : String) (calls : List Call) : Bool :=
  calls.all fun x => x.compiledFrom.all fun pos => ok (classify sql pos)

@[simp] theorem compiledOnly_append (ok : TxnCmd → Bool) (sql : String) (xs ys : List Call) :
    compiledOnly ok sql (xs ++ ys) = (compiledOnly ok sql xs && compiledOnly ok sql ys) :=
  List.all_append

section Req

variable {c : Conn} {w : World TxnDb} {a : Bool} {ok : TxnCmd → Bool}
  (hother : ok .other = true) {P : Txn → Prop}
  (hP : ∀ k x, ok k = true → P x → P (k.run x).1) (hrb : a = true → P .none)
include hother hP hrb

/-- One engine call of a `Req` over `sql`, if it compiles only statements `ok` allows, keeps
    the engine holding only such statements and the transaction within `P`, which such a
    command and the engine's own rollback keep. -/
theorem engineCall_txn {sql : String} {pos : Nat} {w1 w2 : World TxnDb}
    (hcall : EngineCall (txnEngine a) c sql pos w1 w2) :
    ∃ x, w2.log = w1.log ++ [x] ∧
      (compiledOnly ok sql [x] = true → w1.state.Holds ok → P w1.state.txn →
        w2.state.Holds ok ∧ P w2.state.txn) := by
  cases hcall with
  | compile w1 _ _ =>
    refine ⟨_, World.compile_log _ _ rfl, fun hc hw hx => ?_⟩
    simp only [World.compile, World.prepare]
    refine ⟨TxnDb.holds_prepare hw fun st used h => ?_, (TxnDb.prepare_txn _ _).symm ▸ hx⟩
    simpa [compiledOnly, Call.compiledFrom, World.compile, World.prepare, txnEngine, h] using hc
  | step w1 st =>
    refine ⟨_, World.step_log _ _ st, fun _ hw hx => ⟨hw, ?_⟩⟩
    show P (w1.state.step a st).1.txn
    rcases TxnDb.step_cases a st with h | h | ⟨ha, h⟩ <;> rw [h]
    exacts [hx, hP _ _ (TxnDb.cmdOf_holds hw hother st) hx, hrb ha]
  | finalize w1 st =>
    exact ⟨_, World.finalize_log _ _ st, fun _ hw hx => ⟨TxnDb.holds_finalize hw st, hx⟩⟩

/-- **A call of a `Req` that compiles only statements `ok` allows** keeps the engine holding
    only such statements and the transaction within `P`, which such a command and the
    engine's own rollback keep, whether it returns, raises or is cut off. -/
theorem op_txn {r : Req} (n : Nat) (op : Req.Op) (hw : w.state.Holds ok) (hx : P w.state.txn)
    (hc : compiledOnly ok r.sql
      ((Req.Op.run (txnEngine a) c n op r w).state.2.log.drop w.log.length) = true) :
    (Req.Op.run (txnEngine a) c n op r w).state.2.state.Holds ok ∧
      P (Req.Op.run (txnEngine a) c n op r w).state.2.state.txn := by
  have hstep : ∀ w1 w2, EngineCall (txnEngine a) c r.sql 0 w1 w2 →
      (∃ calls, w1.log = w.log ++ calls ∧
        (compiledOnly ok r.sql calls = true → w1.state.Holds ok ∧ P w1.state.txn)) →
      ∃ calls, w2.log = w.log ++ calls ∧
        (compiledOnly ok r.sql calls = true → w2.state.Holds ok ∧ P w2.state.txn) := by
    rintro w1 w2 hcall ⟨calls, hlog, himp⟩
    obtain ⟨x, hx2, hone⟩ := engineCall_txn hother hP hrb hcall
    refine ⟨calls ++ [x], by rw [hx2, hlog, List.append_assoc], fun hc => ?_⟩
    rw [compiledOnly_append, Bool.and_eq_true] at hc
    exact hone hc.2 (himp hc.1).1 (himp hc.1).2
  obtain ⟨calls, hlog, himp⟩ := op_world hstep n op ⟨[], by simp, fun _ => ⟨hw, hx⟩⟩
  rw [hlog, List.drop_left] at hc
  exact himp hc

end Req

/-! ## §3 The objects on one connection -/

/-- A call a client makes on one of the objects on the connection: `begin`, `commit`,
    `abort` or the destructor of the `Trans` at index `i`, or a call of the `Req` at index
    `j`. -/
inductive SysOp where
  | begin (i : Nat)
  | commit (i : Nat)
  | abort (i : Nat)
  | destroy (i : Nat)
  | req (j : Nat) (op : Req.Op)

/-- The `Trans` objects on the connection by index (`none` once destroyed), its `Req`
    objects by index, the world, and the ghost `owner`: the `Trans` whose `BEGIN` opened the
    transaction that is open now. -/
structure Sys where
  trans : Nat → Option Trans
  reqs : Nat → Req
  world : World TxnDb
  owner : Option Nat

namespace Sys

/-- Every `Trans` and `Req` just constructed, on a connection in state `w`. -/
def init (w : World TxnDb) : Sys := ⟨fun _ => some Trans.new, fun _ => Req.new, w, none⟩

/-- The ghost after a call that opened no transaction through `Trans`: the owner of the one
    still open. -/
def keepOwner (owner : Option Nat) (w : World TxnDb) : Option Nat :=
  if w.state.txn.isOpen then owner else none

/-- A finished call `f` of the `Trans` at `i`: the `Trans` is kept (`keep`) or destroyed,
    and a `BEGIN` that returned (`opens`) makes `i` the owner. -/
def transCall (s : Sys) (i : Nat)
    (f : Trans → World TxnDb → Outcome (Trans × World TxnDb) Unit)
    (opens keep : Bool) : Option Sys :=
  match s.trans i with
  | none => none
  | some t =>
    match f t s.world with
    | .ret () (t', w) =>
      some { s with
        trans := Function.update s.trans i (if keep then some t' else none)
        world := w
        owner := if opens then some i else keepOwner s.owner w }
    | .raise _ (t', w) =>
      some { s with
        trans := Function.update s.trans i (if keep then some t' else none)
        world := w
        owner := keepOwner s.owner w }
    | .spin _ => none

/-- One call on the system, with `fuel` for the loops of `Req`; `none` when the call names a
    destroyed `Trans` or runs out of fuel. -/
def run (autoRollback : Bool) (c : Conn) (fuel : Nat) (s : Sys) : SysOp → Option Sys
  | .begin i => s.transCall i (Trans.begin (txnEngine autoRollback) c fuel) true true
  | .commit i => s.transCall i (Trans.commit (txnEngine autoRollback) c fuel) false true
  | .abort i => s.transCall i (Trans.abort (txnEngine autoRollback) c fuel) false true
  | .destroy i => s.transCall i (Trans.destroy (txnEngine autoRollback) c fuel) false false
  | .req j op =>
    match Req.Op.run (txnEngine autoRollback) c fuel op (s.reqs j) s.world with
    | .spin _ => none
    | o =>
      some { s with
        reqs := Function.update s.reqs j o.state.1
        world := o.state.2
        owner := keepOwner s.owner o.state.2 }

/-- The `Req` objects compile only statements whose command `ok` allows: a call of the `Req`
    at `j`, from `s` to `s'`, compiled from its text only such statements. -/
def CompilesOnly (ok : TxnCmd → Bool) (s : Sys) : SysOp → Sys → Prop
  | .req j _, s' => compiledOnly ok (s.reqs j).sql (s'.world.log.drop s.world.log.length) = true
  | _, _ => True

/-- One finished call, the `Req` objects compiling only statements `ok` allows. -/
def Step (ok : TxnCmd → Bool) (autoRollback : Bool) (c : Conn) (s s' : Sys) : Prop :=
  ∃ op fuel, s.run autoRollback c fuel op = some s' ∧ s.CompilesOnly ok op s'

/-- The states reached from a connection with no transaction and no statement, every object
    just constructed, the `Req` objects compiling only statements `ok` allows. -/
def Reach (ok : TxnCmd → Bool) (autoRollback : Bool) (c : Conn) (s : Sys) : Prop :=
  ∃ w : World TxnDb, w.state.txn = .none ∧ w.state.stmts = [] ∧
    Relation.ReflTransGen (Step ok autoRollback c) (init w) s

/-- Every live `Trans` is active exactly when the connection has a transaction open that its
    `BEGIN` opened. -/
def ActiveIffOwner (s : Sys) : Prop :=
  ∀ i t, s.trans i = some t →
    (t.active = true ↔ s.world.state.txn.isOpen = true ∧ s.owner = some i)

/-- Every live `Trans` whose `BEGIN` opened the open transaction is active: half of
    `ActiveIffOwner`. -/
def OwnerActive (s : Sys) : Prop :=
  ∀ i t, s.trans i = some t → s.world.state.txn.isOpen = true → s.owner = some i →
    t.active = true

/-! ## §4 What every reachable state keeps -/

variable {s s' : Sys} {c : Conn} {i : Nat} {t : Trans} {w : World TxnDb} {a : Bool}
  {ok : TxnCmd → Bool}

theorem transCall_cases {f : Trans → World TxnDb → Outcome (Trans × World TxnDb) Unit}
    {opens keep : Bool} (h : s.transCall i f opens keep = some s') :
    ∃ t, s.trans i = some t ∧
      ((∃ t' w, f t s.world = .ret () (t', w) ∧
        s' = ⟨Function.update s.trans i (if keep then some t' else none), s.reqs, w,
          if opens then some i else keepOwner s.owner w⟩) ∨
       (∃ x t' w, f t s.world = .raise x (t', w) ∧
        s' = ⟨Function.update s.trans i (if keep then some t' else none), s.reqs, w,
          keepOwner s.owner w⟩)) := by
  unfold transCall at h
  split at h
  · cases h
  next t hi =>
    refine ⟨t, hi, ?_⟩
    split at h
    next t' w heq => exact .inl ⟨t', w, heq, (Option.some.inj h).symm⟩
    next x t' w heq => exact .inr ⟨x, t', w, heq, (Option.some.inj h).symm⟩
    next => cases h

/-- A call of the `Req` at `j` that finished: the `Req`, the world and the ghost are where
    the call left them. -/
theorem run_req {fuel j : Nat} {op : Req.Op} (h : s.run a c fuel (.req j op) = some s') :
    s' = ⟨s.trans,
      Function.update s.reqs j (Req.Op.run (txnEngine a) c fuel op (s.reqs j) s.world).state.1,
      (Req.Op.run (txnEngine a) c fuel op (s.reqs j) s.world).state.2,
      keepOwner s.owner (Req.Op.run (txnEngine a) c fuel op (s.reqs j) s.world).state.2⟩ := by
  simp only [run] at h
  split at h
  · cases h
  · exact (Option.some.inj h).symm

/-- The ghost keeps an owner only while a transaction is open. -/
theorem keepOwner_some {o : Option Nat} (h : keepOwner o w = some i) :
    w.state.txn.isOpen = true ∧ o = some i := by
  unfold keepOwner at h
  split at h
  · exact ⟨‹_›, h⟩
  · cases h

theorem keepOwner_none : keepOwner none w = none := by
  unfold keepOwner
  split <;> rfl

theorem keepOwner_closed {o : Option Nat} (h : w.state.txn = .none) : keepOwner o w = none := by
  simp [keepOwner, h, Txn.isOpen]

/-- A call that keeps open every transaction some `Trans` owns keeps `ActiveIffOwner`; the
    ghost forgets an owner only of a transaction that is no longer open. -/
theorem ActiveIffOwner.keep (h : s.ActiveIffOwner)
    (hown : ∀ i, s.owner = some i →
      s.world.state.txn.isOpen = true ∧ w.state.txn.isOpen = true) (rs : Nat → Req) :
    ActiveIffOwner ⟨s.trans, rs, w, keepOwner s.owner w⟩ := by
  intro k t hk
  rw [h k t hk]
  rcases ho : s.owner with _ | j
  · simp [keepOwner_none]
  · obtain ⟨h1, h2⟩ := hown j ho
    simp [keepOwner, h1, h2]

/-- Destroying a `Trans` keeps `ActiveIffOwner`. -/
theorem ActiveIffOwner.remove (h : s.ActiveIffOwner) (i : Nat) :
    ActiveIffOwner { s with trans := Function.update s.trans i none } := by
  intro k t hk
  rcases eq_or_ne k i with rfl | hne
  · simp at hk
  · exact h k t (by simpa [Function.update_noteq hne] using hk)

/-- A `BEGIN` of `Trans` `i` that opened the transaction keeps `ActiveIffOwner`, with `i` the
    owner: no `Trans` was active before it. -/
theorem ActiveIffOwner.began (h : s.ActiveIffOwner) (hin : s.world.state.txn.isOpen = false)
    (hin' : w.state.txn.isOpen = true) (rs : Nat → Req) :
    ActiveIffOwner ⟨Function.update s.trans i (some ⟨true⟩), rs, w, some i⟩ := by
  intro k t hk
  rcases eq_or_ne k i with rfl | hne
  · simp only [Function.update_same, Option.some.injEq] at hk
    simp [← hk, hin']
  · simp only [Function.update_noteq hne] at hk
    simp [h k t hk, hin, Ne.symm hne]

/-- A `COMMIT` or `ROLLBACK` of the active `Trans` `i` that ended the transaction keeps
    `ActiveIffOwner`, `i` now inactive or destroyed: `i` was the owner, so no other `Trans`
    was active. -/
theorem ActiveIffOwner.ended (h : s.ActiveIffOwner) (hi : s.trans i = some t)
    (ht : t.active = true) (hin' : w.state.txn.isOpen = false) {slot : Option Trans}
    (hslot : slot = some ⟨false⟩ ∨ slot = none) (rs : Nat → Req) :
    ActiveIffOwner ⟨Function.update s.trans i slot, rs, w, keepOwner s.owner w⟩ := by
  have howner := ((h i t hi).1 ht).2
  intro k t' hk
  simp only [keepOwner, hin', Bool.false_eq_true, false_and, iff_false, Bool.not_eq_true]
  rcases eq_or_ne k i with rfl | hne
  · rcases hslot with rfl | rfl <;> simp at hk
    exact hk ▸ rfl
  · simp only [Function.update_noteq hne] at hk
    simpa [howner, Ne.symm hne] using (h k t' hk).1

/-- A call keeps `OwnerActive` while an owner's transaction was open before it: a
    transaction the ghost still names after the call is the one it named before. -/
theorem OwnerActive.keep (h : s.OwnerActive)
    (hown : ∀ i, s.owner = some i → s.world.state.txn.isOpen = true) (rs : Nat → Req) :
    OwnerActive ⟨s.trans, rs, w, keepOwner s.owner w⟩ := by
  intro k t hk _ ho
  obtain ⟨-, ho'⟩ := keepOwner_some ho
  exact h k t hk (hown k ho') ho'

theorem OwnerActive.remove (h : s.OwnerActive) (i : Nat) :
    OwnerActive { s with trans := Function.update s.trans i none } := by
  intro k t hk
  rcases eq_or_ne k i with rfl | hne
  · simp at hk
  · exact h k t (by simpa [Function.update_noteq hne] using hk)

/-- The `BEGIN` of `Trans` `i` that opened the transaction leaves `i` active and the owner. -/
theorem OwnerActive.began (rs : Nat → Req) :
    OwnerActive ⟨Function.update s.trans i (some ⟨true⟩), rs, w, some i⟩ := by
  intro k t hk _ ho
  cases ho
  simp only [Function.update_same, Option.some.injEq] at hk
  exact hk ▸ rfl

/-- With no transaction open, `OwnerActive` holds of any objects. -/
theorem OwnerActive.of_closed (hin : w.state.txn.isOpen = false) (tr : Nat → Option Trans)
    (rs : Nat → Req) (owner : Option Nat) : OwnerActive ⟨tr, rs, w, owner⟩ := by
  intro _ _ _ hw
  rw [hin] at hw
  cases hw

/-- What every reachable state keeps: `OwnerActive`, and `ActiveIffOwner` on an engine
    without its own rollback; the ghost names an owner only of an open transaction, one that
    `BEGIN` opened where the engine does not roll back on its own; and the engine holds only
    statements `ok` allows. -/
structure Inv (ok : TxnCmd → Bool) (a : Bool) (s : Sys) : Prop where
  ownerActive : s.OwnerActive
  activeIffOwner : a = false → s.ActiveIffOwner
  ownerOpen : ∀ i, s.owner = some i → s.world.state.txn.isOpen = true
  ownerBegun : a = false → ∀ i, s.owner = some i → s.world.state.txn.isBegun = true
  holds : s.world.state.Holds ok

theorem Inv.init {w : World TxnDb} (h0 : w.state.txn = .none) (h1 : w.state.stmts = []) :
    (init w).Inv ok a where
  ownerActive := .of_closed (by rw [h0]; rfl) _ _ _
  activeIffOwner _ _ _ ht := by cases ht; simp [Sys.init, Trans.new]
  ownerOpen _ h := by cases h
  ownerBegun _ _ h := by cases h
  holds _ hp := by simp [Sys.init, h1] at hp

/-- A call of `Trans` `i` past which the transaction is kept or ended by the engine, the
    `Trans` kept as it was or destroyed, keeps the invariant. -/
theorem Inv.quiet (h : s.Inv ok a) (hi : s.trans i = some t) {slot : Option Trans}
    (hslot : slot = some t ∨ slot = none) (hw : w.state.Holds ok)
    (hin : Kept a s.world.state.txn w.state.txn) :
    Inv ok a ⟨Function.update s.trans i slot, s.reqs, w, keepOwner s.owner w⟩ := by
  have hc := fun ha : a = false => (h.activeIffOwner ha).keep
    (fun j hj => ⟨h.ownerOpen j hj, hin.eq ha ▸ h.ownerOpen j hj⟩) s.reqs
  have hb : a = false → ∀ j, keepOwner s.owner w = some j → w.state.txn.isBegun = true :=
    fun ha j hj => hin.eq ha ▸ h.ownerBegun ha j (keepOwner_some hj).2
  have ho : ∀ j, keepOwner s.owner w = some j → w.state.txn.isOpen = true :=
    fun _ hj => (keepOwner_some hj).1
  rcases hslot with rfl | rfl
  · rw [← hi, Function.update_eq_self]
    exact ⟨h.ownerActive.keep h.ownerOpen s.reqs, hc, ho, hb, hw⟩
  · exact ⟨(h.ownerActive.keep h.ownerOpen s.reqs).remove i, fun ha => (hc ha).remove i, ho, hb,
      hw⟩

/-- A `COMMIT;` or `ROLLBACK;` of `Trans` `i` through `Trans.command`, the `Trans` kept or
    destroyed after it, keeps the invariant, whether it returned or raised. -/
theorem Inv.ending (h : s.Inv ok a) (hi : s.trans i = some t) {sql msg : String} {cmd : TxnCmd}
    (hsql : CommandText sql cmd) (hcmd : cmd = .commit ∨ cmd = .rollback)
    {n : Nat} {o} (ho : Trans.command (txnEngine a) c n false msg sql false t s.world = o)
    (hfin : o.Finished) {slot : Option Trans}
    (hslot : slot = some o.state.1 ∨ slot = none) :
    Inv ok a ⟨Function.update s.trans i slot, s.reqs, o.state.2, keepOwner s.owner o.state.2⟩ := by
  obtain ⟨hw, hret, hraise⟩ := command_txn hsql h.holds ho hfin
  rcases o with ⟨⟨⟩, t', w'⟩ | ⟨x, t', w'⟩ | _
  · obtain ⟨hact, rfl, hrun⟩ := hret _ _ rfl
    have hin' := TxnCmd.end_done hcmd hrun
    have hk : keepOwner s.owner w' = none := keepOwner_closed hin'
    have hclosed : w'.state.txn.isOpen = false := by rw [hin']; rfl
    refine ⟨.of_closed hclosed _ _ _,
      fun ha => (h.activeIffOwner ha).ended hi (by simpa using hact) hclosed hslot s.reqs,
      fun _ hj => ?_, fun _ _ hj => ?_, hw⟩ <;> simp [Outcome.state, hk] at hj
  · obtain ⟨rfl, hin⟩ := hraise _ _ _ rfl
    exact h.quiet hi hslot hw hin
  · exact absurd hfin id

section Step

variable (hok : ∀ k, ok k = true → k.ofTrans = false) (hother : ok .other = true)
include hok hother

/-- **One call keeps the invariant.** -/
theorem Inv.step (h : s.Inv ok a) {op : SysOp} {fuel : Nat}
    (hs : s.run a c fuel op = some s') (hq : s.CompilesOnly ok op s') : s'.Inv ok a := by
  cases op with
  | begin i =>
    obtain ⟨t, hi, ⟨t', w, ho, rfl⟩ | ⟨x, t', w, ho, rfl⟩⟩ := transCall_cases hs
    · obtain ⟨hw, hret, -⟩ := command_txn commandText_begin h.holds ho trivial
      obtain ⟨-, rfl, hrun⟩ := hret _ _ rfl
      obtain ⟨hin, hin'⟩ := TxnCmd.begin_done hrun
      have hbegun : w.state.txn.isBegun = true := by rw [hin']; rfl
      exact ⟨.began s.reqs,
        fun ha => (h.activeIffOwner ha).began (by rw [hin]; rfl) (Txn.isOpen_of_isBegun hbegun)
          s.reqs,
        fun _ hj => by cases hj; exact Txn.isOpen_of_isBegun hbegun,
        fun _ _ hj => by cases hj; exact hbegun, hw⟩
    · obtain ⟨hw, -, hraise⟩ := command_txn commandText_begin h.holds ho trivial
      obtain ⟨rfl, hin⟩ := hraise _ _ _ rfl
      exact h.quiet hi (.inl rfl) hw hin
  | commit i =>
    obtain ⟨t, hi, ⟨t', w, ho, rfl⟩ | ⟨x, t', w, ho, rfl⟩⟩ := transCall_cases hs <;>
      exact h.ending hi commandText_commit (.inl rfl) ho trivial (.inl rfl)
  | abort i =>
    obtain ⟨t, hi, ⟨t', w, ho, rfl⟩ | ⟨x, t', w, ho, rfl⟩⟩ := transCall_cases hs <;>
      exact h.ending hi commandText_rollback (.inr rfl) ho trivial (.inl rfl)
  | destroy i =>
    obtain ⟨t, hi, ⟨t', w, ho, rfl⟩ | ⟨x, t', w, ho, rfl⟩⟩ := transCall_cases hs <;>
      unfold Trans.destroy at ho <;> cases ht : t.active <;> simp only [ht, if_true] at ho
    · cases ho
      exact h.quiet hi (.inr rfl) h.holds (.refl a _)
    · exact h.ending hi commandText_rollback (.inr rfl) ho trivial (.inr rfl)
    · cases ho
    · exact h.ending hi commandText_rollback (.inr rfl) ho trivial (.inr rfl)
  | req j op =>
    obtain rfl := run_req hs
    have hx := op_txn (c := c) hother
      (P := fun x => a = false → ∀ i, s.owner = some i → x.isBegun = true)
      (fun k _ hk hx ha i hi => TxnCmd.run_begun (hok k hk) (hx ha i hi))
      (fun ha ha' => Bool.noConfusion (ha.symm.trans ha')) fuel op h.holds h.ownerBegun hq
    exact ⟨h.ownerActive.keep h.ownerOpen _,
      fun ha => (h.activeIffOwner ha).keep
        (fun i hi => ⟨h.ownerOpen i hi, Txn.isOpen_of_isBegun (hx.2 ha i hi)⟩) _,
      fun _ hi => (keepOwner_some hi).1, fun ha i hi => hx.2 ha i (keepOwner_some hi).2, hx.1⟩

/-- **Every reachable state keeps the invariant.** -/
theorem Reach.inv (h : Reach ok a c s) : s.Inv ok a := by
  obtain ⟨w, h0, h1, hr⟩ := h
  induction hr with
  | refl => exact Inv.init h0 h1
  | tail _ hs ih =>
    obtain ⟨op, fuel, hrun, hq⟩ := hs
    exact ih.step hok hother hrun hq

/-- A `begin`, `commit` or `abort` that raises in a reachable state leaves the `Trans` as it
    was and the transaction `Kept`. -/
theorem Reach.command_raise (h : Reach ok a c s) {t : Trans} {n : Nat} {x : Error}
    {r : Trans × World TxnDb}
    (hx : Trans.begin (txnEngine a) c n t s.world = .raise x r ∨
      Trans.commit (txnEngine a) c n t s.world = .raise x r ∨
      Trans.abort (txnEngine a) c n t s.world = .raise x r) :
    r.1 = t ∧ Kept a s.world.state.txn r.2.state.txn := by
  have hw := (h.inv hok hother).holds
  rcases hx with hx | hx | hx
  · exact (command_txn commandText_begin hw hx trivial).2.2 x r.1 r.2 rfl
  · exact (command_txn commandText_commit hw hx trivial).2.2 x r.1 r.2 rfl
  · exact (command_txn commandText_rollback hw hx trivial).2.2 x r.1 r.2 rfl

end Step

/-- The statements the `Req` objects may compile where they compile no command of `Trans`. -/
theorem notTrans_ok : ∀ k : TxnCmd, (!k.ofTrans) = true → k.ofTrans = false :=
  fun _ h => by simpa using h

end Sys

/-! ## §5 Whose transaction `is_active()` reports -/

/-- **What `is_active()` tells on an engine that may roll back on its own**, as sqlite may after
    `SQLITE_FULL`, `SQLITE_IOERR`, `SQLITE_BUSY` or `SQLITE_NOMEM`. In every reachable state,
    every live `Trans` whose `BEGIN` opened the open transaction is active: the flag can be
    stale, never missing. A `begin`, `commit` or `abort` that raises keeps the flag, and the
    transaction is as it was or ended by the engine. -/
theorem txn_owner_active (a : Bool) (c : Conn) :
    (∀ s, Sys.Reach (fun k => !k.ofTrans) a c s → s.OwnerActive) ∧
    (∀ s, Sys.Reach (fun k => !k.ofTrans) a c s → ∀ (t : Trans) n x r,
      (Trans.begin (txnEngine a) c n t s.world = .raise x r ∨
        Trans.commit (txnEngine a) c n t s.world = .raise x r ∨
        Trans.abort (txnEngine a) c n t s.world = .raise x r) →
      r.1 = t ∧ Kept a s.world.state.txn r.2.state.txn) := by
  exact ⟨fun s h => (h.inv Sys.notTrans_ok rfl).ownerActive,
    fun s h t n x r hx => h.command_raise Sys.notTrans_ok rfl hx⟩

/-! ## §6 A stale `Trans` -/

/-- The calls that cannot open a transaction through `Trans` while `Trans` `i` is active and
    none is open: all but a `begin` of another `Trans`; and `i` is not destroyed. -/
def SysOp.KeepsStale (i : Nat) : SysOp → Prop
  | .begin j => j = i
  | .destroy j => j ≠ i
  | _ => True

namespace Sys

/-- `Trans` `i` reports itself active while the connection has no transaction open, as the
    engine's own rollback can leave it. -/
structure Stale (i : Nat) (s : Sys) : Prop where
  active : s.trans i = some ⟨true⟩
  closed : s.world.state.txn = .none

/-- One finished call that cannot open a transaction while `i` is stale: no `begin` of
    another `Trans`, no destruction of `i`, and the `Req` objects compile no command of
    `Trans` and no `SAVEPOINT`. -/
def StaleStep (autoRollback : Bool) (c : Conn) (i : Nat) (s s' : Sys) : Prop :=
  ∃ op fuel, op.KeepsStale i ∧ s.run autoRollback c fuel op = some s' ∧
    s.CompilesOnly (fun k => !k.ofTrans && !k.opens) op s'

variable {s s' : Sys} {c : Conn} {i : Nat} {a : Bool}

/-- With no transaction open, destroying a `Trans` leaves none open. -/
theorem destroy_closed {ok : TxnCmd → Bool} {w : World TxnDb} (hw : w.state.Holds ok)
    (hin : w.state.txn = .none) {n : Nat} {t : Trans} {o}
    (h : Trans.destroy (txnEngine a) c n t w = o) (hfin : o.Finished) :
    o.state.2.state.txn = .none := by
  unfold Trans.destroy at h
  split at h
  · obtain ⟨x, w', rfl, hin'⟩ := command_raises_of_closed commandText_rollback hw hin
      (fun _ => TxnCmd.end_not_done (.inr rfl)) h hfin
    exact hin'
  · subst h
    exact hin

/-- The statements a stale run's `Req` objects may compile. -/
theorem quiet_ok : ∀ k : TxnCmd, (!k.ofTrans && !k.opens) = true → k.ofTrans = false :=
  fun _ h => by simp_all

variable (h : s.Inv (fun k => !k.ofTrans && !k.opens) a) (hst : s.Stale i)
include h hst

/-- A `begin`, `commit` or `abort` of `Trans` `j` that cannot run to DONE outside a
    transaction keeps `i` stale. -/
theorem Inv.stale_command {j : Nat} {sql msg : String}
    {cmd : TxnCmd} (hsql : CommandText sql cmd) {n : Nat} {busy after opens : Bool}
    (hno : ∀ t, s.trans j = some t → t.active ≠ busy →
      ∀ x', cmd.run .none ≠ (x', sqliteDone))
    (hs : s.transCall j (Trans.command (txnEngine a) c n busy msg sql after) opens true = some s') :
    s'.Stale i := by
  obtain ⟨t, ht, ⟨t', w, ho, rfl⟩ | ⟨x, t', w, ho, rfl⟩⟩ := transCall_cases hs <;>
    obtain ⟨x', w', ho', hin⟩ :=
      command_raises_of_closed hsql h.holds hst.closed (hno t ht) ho trivial <;>
    cases ho'
  exact ⟨by simpa [← ht] using hst.active, hin⟩

/-- **One call keeps a `Trans` stale.** -/
theorem Inv.stale_step {op : SysOp} {fuel : Nat} (hq : op.KeepsStale i)
    (hs : s.run a c fuel op = some s') (hc : s.CompilesOnly (fun k => !k.ofTrans && !k.opens) op s') :
    s'.Stale i := by
  cases op with
  | begin j =>
    obtain rfl : j = i := hq
    refine h.stale_command hst commandText_begin (fun t ht hb => absurd ?_ hb) hs
    rw [hst.active] at ht
    cases ht
    rfl
  | commit j =>
    exact h.stale_command hst commandText_commit (fun _ _ _ => TxnCmd.end_not_done (.inl rfl)) hs
  | abort j =>
    exact h.stale_command hst commandText_rollback (fun _ _ _ => TxnCmd.end_not_done (.inr rfl)) hs
  | destroy j =>
    have hij : i ≠ j := Ne.symm hq
    obtain ⟨t, -, ⟨t', w, ho, rfl⟩ | ⟨x, t', w, ho, rfl⟩⟩ := transCall_cases hs <;>
      exact ⟨by simpa [Function.update_noteq hij] using hst.active,
        destroy_closed h.holds hst.closed ho trivial⟩
  | req j op =>
    obtain rfl := run_req hs
    have hx := op_txn (c := c) rfl (P := fun x => x = .none)
      (fun k x hk hx => hx ▸ TxnCmd.run_none (quiet_ok k hk) (by simp_all))
      (fun _ => rfl) fuel op h.holds hst.closed hc
    exact ⟨hst.active, hx.2⟩

omit hst in
/-- **A whole run keeps a `Trans` stale**, and the invariant. -/
theorem Inv.stale_run (hst : s.Stale i)
    (hrun : Relation.ReflTransGen (StaleStep a c i) s s') :
    s'.Inv (fun k => !k.ofTrans && !k.opens) a ∧ s'.Stale i := by
  induction hrun with
  | refl => exact ⟨h, hst⟩
  | tail _ hs ih =>
    obtain ⟨op, fuel, hq, hr, hc⟩ := hs
    exact ⟨ih.1.step quiet_ok rfl hr hc, ih.1.stale_step ih.2 hq hr hc⟩

end Sys

/-- **A `Trans` left active by the engine's own rollback is stuck.** Where no `Req` compiles a
    `BEGIN`, `COMMIT`, `END`, `ROLLBACK` or `SAVEPOINT`: from a reachable state in which
    `Trans` `i` is active while no transaction is open, any run of calls with no `begin` of
    another `Trans` and no destruction of `i` leaves `i` active and no transaction open. The
    guard of its `begin` refuses it, its `COMMIT;` and `ROLLBACK;` fail outside a
    transaction, and no statement of a `Req` opens one. -/
theorem txn_stale_stuck (a : Bool) (c : Conn) (i : Nat) {s s' : Sys}
    (h : Sys.Reach (fun k => !k.ofTrans && !k.opens) a c s) (hst : s.Stale i)
    (hrun : Relation.ReflTransGen (Sys.StaleStep a c i) s s') : s'.Stale i :=
  ((h.inv Sys.quiet_ok rfl).stale_run hst hrun).2

/-- A `Trans` begins, and a `DELETE` of a `Req` fails with `SQLITE_FULL`, after which the
    engine rolls back on its own: the `Trans`'s `commit`, `abort` and `begin` then all raise,
    and it stays active with no transaction open. -/
theorem txn_stale_stuck_after_full :
    ∃ s s', Sys.Reach (fun k => !k.ofTrans && !k.opens) true ⟨some 0⟩ s ∧ s.Stale 0 ∧
      Relation.ReflTransGen (Sys.StaleStep true ⟨some 0⟩ 0) s s' ∧ s'.Stale 0 := by
  have hr : Sys.Reach (fun k => !k.ofTrans && !k.opens) true ⟨some 0⟩ _ :=
    ⟨⟨⟨.none, [], 0, 0, fun n => if n = 3 then some sqliteFull else none⟩, []⟩, rfl, rfl,
      .tail (.tail (.single ⟨.begin 0, 3, rfl, trivial⟩)
        ⟨.req 0 (.append "DELETE FROM t;"), 3, rfl, rfl⟩)
        ⟨.req 0 .exec, 3, rfl, rfl⟩⟩
  exact (fun hrun => ⟨_, _, hr, ⟨rfl, rfl⟩, hrun,
      txn_stale_stuck true ⟨some 0⟩ 0 hr ⟨rfl, rfl⟩ hrun⟩)
    (.tail (.tail (.single ⟨.commit 0, 3, trivial, rfl, trivial⟩)
      ⟨.abort 0, 3, trivial, rfl, trivial⟩) ⟨.begin 0, 3, rfl, rfl, trivial⟩)

end Sqld
