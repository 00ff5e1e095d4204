import Mathlib.Logic.Basic

/-!
# The Engine Capability of `scc::sqld`

The wrapper in `src/sqld.cc` reaches sqlite through a handful of C calls: `sqlite3_open`,
`sqlite3_close`, `sqlite3_prepare_v2`, `sqlite3_step`, `sqlite3_finalize` and the column
readers. They are modelled here as an abstract capability `Engine σ` over an engine state
`σ`: whatever sqlite does with a call is a function of that state, so a theorem stated for
every `e : Engine σ` holds for every engine behaviour.

Each call the wrapper makes is also appended to a ghost log (`World.log`); the refinement,
the resource and the safety results of the later modules are statements about that log.

The C++ members raise `std::runtime_error`; a member that raises keeps every assignment it
made before the `throw`. `Outcome` records both, and a third case for a `while (1)` loop
whose fuel ran out before the loop ended (`loop`).

## Main definitions
- `Prepared`, `Engine`: the answers of the engine and the capability itself.
- `Call`, `World`: the ghost log and the engine state it travels with.
- `Error`, `Outcome`, `Step`, `loop`: how a member call ends, and `while (1)` with fuel.
- `tapeEngine`: an engine that plays back recorded answers.

## Main results
- `loop_induction`, `loop_invariant`, `loop_finished`: the run lemmas every loop of the
  wrapper is reasoned about with; `FuelMono.le`: more fuel does not change a finished call.
-/

namespace Sqld

/-! ## §1 Result codes and handles -/

/-- An sqlite result code. -/
abbrev Code := Nat

/-- `SQLITE_OK`. -/
def sqliteOk : Code := 0
/-- `SQLITE_ERROR`. -/
def sqliteError : Code := 1
/-- `SQLITE_BUSY`. -/
def sqliteBusy : Code := 5
/-- `SQLITE_NOMEM`. -/
def sqliteNoMem : Code := 7
/-- `SQLITE_IOERR`. -/
def sqliteIoErr : Code := 10
/-- `SQLITE_FULL`. -/
def sqliteFull : Code := 13
/-- `SQLITE_CANTOPEN`. -/
def sqliteCantOpen : Code := 14
/-- `SQLITE_ROW`: `sqlite3_step` has another row ready. -/
def sqliteRow : Code := 100
/-- `SQLITE_DONE`: `sqlite3_step` has finished executing. -/
def sqliteDone : Code := 101

@[simp] theorem sqliteRow_ne_sqliteDone : sqliteRow ≠ sqliteDone := by decide
@[simp] theorem sqliteDone_ne_sqliteRow : sqliteDone ≠ sqliteRow := by decide

/-- A compiled statement handle (`sqlite3_stmt*`), compared by identity. -/
abbrev Stmt := Nat

/-- A database connection handle (`sqlite3*`). -/
abbrev Db := Nat

/-- What `sqlite3_prepare_v2(db, head, nByte, &stmt, &tail)` reports. -/
inductive Prepared where
  /-- `SQLITE_OK`, the statement written to `*ppStmt` (none when the text left holds no
      SQL) and `tail - head`, the number of bytes consumed. -/
  | ok (stmt : Option Stmt) (used : Nat)
  /-- An error code; sqlite then writes NULL to `*ppStmt`. -/
  | error (code : Code)
  deriving DecidableEq, Repr

/-! ## §2 The capability -/

/-- The sqlite calls `src/sqld.cc` makes, as functions of the engine state `σ`.
    `prepare st db sql pos nByte` compiles from byte `pos` of `sql`, the text the wrapper
    points `head` at, reading at most `nByte` bytes. -/
structure Engine (σ : Type) where
  /-- `sqlite3_open(uri, &db)`: a result code and the handle written to `*ppDb`, which
      sqlite hands back even when it reports an error (NULL only when out of memory). -/
  openDb : σ → String → σ × Code × Option Db
  /-- `sqlite3_close(db)`; `SQLITE_BUSY` releases nothing. -/
  closeDb : σ → Db → σ × Code
  /-- `sqlite3_prepare_v2`. -/
  prepare : σ → Option Db → String → Nat → Nat → σ × Prepared
  /-- `sqlite3_step`. -/
  step : σ → Stmt → σ × Code
  /-- `sqlite3_finalize` (its result is ignored by the wrapper). -/
  finalize : σ → Stmt → σ
  /-- `sqlite3_column_count`. -/
  columnCount : σ → Stmt → Nat
  /-- `sqlite3_column_name`. -/
  columnName : σ → Stmt → Nat → String
  /-- `sqlite3_column_text`; none is the NULL pointer returned for an SQL NULL. -/
  columnText : σ → Stmt → Nat → Option String
  /-- `sqlite3_column_int`. -/
  columnInt : σ → Stmt → Nat → Int
  /-- `sqlite3_column_int64`. -/
  columnInt64 : σ → Stmt → Nat → Int
  /-- `sqlite3_column_double`. -/
  columnDouble : σ → Stmt → Nat → Float
  /-- `sqlite3_column_bytes`. -/
  columnBytes : σ → Stmt → Nat → Nat
  /-- The bytes `sqlite3_column_blob` points at. -/
  columnBlob : σ → Stmt → Nat → List UInt8

/-! ## §3 The ghost log -/

/-- One engine call of the wrapper, with what the engine answered. -/
inductive Call where
  | openDb (uri : String) (code : Code) (db : Option Db)
  | closeDb (db : Db) (code : Code)
  | prepare (db : Option Db) (pos nByte : Nat) (answer : Prepared)
  | step (stmt : Stmt) (code : Code)
  | finalize (stmt : Stmt)
  deriving DecidableEq, Repr

/-- The engine state together with the log of every call made so far, oldest first. -/
structure World (σ : Type) where
  state : σ
  log : List Call

namespace World

variable {σ : Type} (e : Engine σ) (w : World σ)

/-- Call `sqlite3_open`. -/
def openDb (uri : String) : (Code × Option Db) × World σ :=
  ((e.openDb w.state uri).2,
    ⟨(e.openDb w.state uri).1,
      w.log ++ [.openDb uri (e.openDb w.state uri).2.1 (e.openDb w.state uri).2.2]⟩)

/-- Call `sqlite3_close`. -/
def closeDb (db : Db) : Code × World σ :=
  ((e.closeDb w.state db).2,
    ⟨(e.closeDb w.state db).1, w.log ++ [.closeDb db (e.closeDb w.state db).2]⟩)

/-- Call `sqlite3_prepare_v2`. -/
def prepare (db : Option Db) (sql : String) (pos nByte : Nat) : Prepared × World σ :=
  ((e.prepare w.state db sql pos nByte).2,
    ⟨(e.prepare w.state db sql pos nByte).1,
      w.log ++ [.prepare db pos nByte (e.prepare w.state db sql pos nByte).2]⟩)

/-- Call `sqlite3_step`. -/
def step (st : Stmt) : Code × World σ :=
  ((e.step w.state st).2, ⟨(e.step w.state st).1, w.log ++ [.step st (e.step w.state st).2]⟩)

/-- Call `sqlite3_finalize`. -/
def finalize (st : Stmt) : World σ :=
  ⟨e.finalize w.state st, w.log ++ [.finalize st]⟩

@[simp] theorem step_log (st : Stmt) :
    (w.step e st).2.log = w.log ++ [.step st (w.step e st).1] := rfl

@[simp] theorem finalize_log (st : Stmt) : (w.finalize e st).log = w.log ++ [.finalize st] :=
  rfl

@[simp] theorem prepare_log (db : Option Db) (sql : String) (pos nByte : Nat) :
    (w.prepare e db sql pos nByte).2.log =
      w.log ++ [.prepare db pos nByte (w.prepare e db sql pos nByte).1] := rfl

@[simp] theorem openDb_log (uri : String) :
    (w.openDb e uri).2.log = w.log ++ [.openDb uri (w.openDb e uri).1.1 (w.openDb e uri).1.2] :=
  rfl

@[simp] theorem closeDb_log (db : Db) :
    (w.closeDb e db).2.log = w.log ++ [.closeDb db (w.closeDb e db).1] := rfl

end World

/-! ## §4 How a member call ends -/

/-- The exceptions of `src/sqld.cc`. All are `std::runtime_error` there; the first two
    keep apart what the engine reported from a broken precondition of the caller. -/
inductive Error where
  /-- `std::runtime_error(sqlite3_errstr(r))`: the engine reported the code `r`. -/
  | engine (code : Code)
  /-- `std::runtime_error(what)` raised by a guard of the wrapper. -/
  | usage (what : String)
  /-- Not an exception: a `std::string` built from a NULL `const char*`, which is
      undefined behaviour. -/
  | nullString
  deriving DecidableEq, Repr

/-- The end of a member call, with the state it leaves behind: it returns, it raises
    (keeping every assignment made before the `throw`), or a `while (1)` loop in it has
    not ended within the fuel given. -/
inductive Outcome (S α : Type) where
  | ret (a : α) (s : S)
  | raise (x : Error) (s : S)
  | spin (s : S)

/-- The call returned or raised. -/
def Outcome.Finished {S α : Type} : Outcome S α → Prop
  | .spin _ => False
  | _ => True

/-- The state an outcome leaves behind. -/
def Outcome.state {S α : Type} : Outcome S α → S
  | .ret _ s => s
  | .raise _ s => s
  | .spin s => s

/-- The outcome with the value it returns dropped. -/
def Outcome.unit {S α : Type} : Outcome S α → Outcome S Unit
  | .ret _ s => .ret () s
  | .raise x s => .raise x s
  | .spin s => .spin s

@[simp] theorem Outcome.state_unit {S α : Type} (o : Outcome S α) : o.unit.state = o.state := by
  cases o <;> rfl
@[simp] theorem Outcome.finished_unit {S α : Type} (o : Outcome S α) :
    o.unit.Finished ↔ o.Finished := by
  cases o <;> rfl

/-- What one pass of a `while (1)` body does: go round again from `s`, or leave the loop
    with an outcome. -/
inductive Step (S α : Type) where
  | next (s : S)
  | exit (o : Outcome S α)

/-- A pass that goes round again, or leaves with a finished outcome. -/
def Step.Finished {S α : Type} : Step S α → Prop
  | .next _ => True
  | .exit o => o.Finished

@[simp] theorem Step.finished_next {S α : Type} (s : S) : (Step.next s : Step S α).Finished :=
  trivial
@[simp] theorem Step.finished_exit {S α : Type} (o : Outcome S α) :
    (Step.exit o).Finished ↔ o.Finished := Iff.rfl

section Loop

variable {S α : Type} (body : Nat → S → Step S α)

/-- `while (1) body`, run for at most `fuel` passes; each pass is handed the fuel left,
    for the loops nested in it. -/
def loop : Nat → S → Outcome S α
  | 0, s => .spin s
  | n + 1, s =>
    match body n s with
    | .next s' => loop n s'
    | .exit o => o

@[simp] theorem loop_zero (s : S) : loop body 0 s = .spin s := rfl

theorem loop_succ (n : Nat) (s : S) :
    loop body (n + 1) s = match body n s with
      | .next s' => loop body n s'
      | .exit o => o := rfl

@[simp] theorem Outcome.finished_ret (a : α) (s : S) : (Outcome.ret a s).Finished := trivial
@[simp] theorem Outcome.finished_raise (x : Error) (s : S) :
    (Outcome.raise x s : Outcome S α).Finished := trivial
@[simp] theorem Outcome.not_finished_spin (s : S) : ¬ (Outcome.spin s : Outcome S α).Finished :=
  id

/-- More fuel does not change a loop that has finished, when it does not change a body
    pass that has finished. -/
theorem loop_succ_of_finished
    (hb : ∀ n s, (body n s).Finished → body (n + 1) s = body n s) :
    ∀ n s, (loop body n s).Finished → loop body (n + 1) s = loop body n s := by
  intro n
  induction n with
  | zero => intro s h; exact absurd h (Outcome.not_finished_spin s)
  | succ n ih =>
    intro s h
    rw [loop_succ] at h
    rw [loop_succ, loop_succ]
    cases hs : body n s with
    | next s' =>
      rw [hs] at h
      rw [hb n s (by rw [hs]; trivial), hs]
      exact ih s' h
    | exit o =>
      rw [hs] at h
      rw [hb n s (by rw [hs]; exact h), hs]

/-- The induction principle of `loop`: a property `P` of the states the loop goes round
    from, kept by every pass that goes round again, gives a property `Q` of the outcome, when
    every exit from a `P` state, and the cut-off at a `P` state, satisfy `Q`. -/
theorem loop_induction (P : S → Prop) (Q : Outcome S α → Prop) (hspin : ∀ s, P s → Q (.spin s))
    (hnext : ∀ n s s', P s → body n s = .next s' → P s')
    (hexit : ∀ n s o, P s → body n s = .exit o → Q o) :
    ∀ n s, P s → Q (loop body n s) := by
  intro n
  induction n with
  | zero => exact hspin
  | succ n ih =>
    intro s h
    rw [loop_succ]
    cases hb : body n s with
    | next s' => exact ih s' (hnext n s s' h hb)
    | exit o => exact hexit n s o h hb

/-- What every pass of the body keeps holds of the state the loop ends in, however it
    ends (the fuel running out included). -/
theorem loop_invariant (P : S → Prop) (hnext : ∀ n s s', P s → body n s = .next s' → P s')
    (hexit : ∀ n s o, P s → body n s = .exit o → P o.state) :
    ∀ n s, P s → P (loop body n s).state :=
  loop_induction body P (fun o => P o.state) (fun _ h => h) hnext hexit

/-- A loop whose passes lower a measure `μ`, and whose exits are finished, finishes with
    more fuel than the measure. -/
theorem loop_finished (μ : S → Nat) (hnext : ∀ n s s', body n s = .next s' → μ s' < μ s)
    (hexit : ∀ n s o, body n s = .exit o → o.Finished) :
    ∀ n s, μ s < n → (loop body n s).Finished := by
  intro n
  induction n with
  | zero => exact fun _ h => absurd h (Nat.not_lt_zero _)
  | succ n ih =>
    intro s h
    rw [loop_succ]
    cases hb : body n s with
    | next s' => exact ih s' (Nat.lt_of_lt_of_le (hnext n s s' hb) (Nat.lt_succ_iff.1 h))
    | exit o => exact hexit n s o hb

end Loop

/-- A fuel-indexed call that more fuel does not change once it has finished. -/
def FuelMono {S T α : Type} (f : Nat → S → Outcome T α) : Prop :=
  ∀ n s, (f n s).Finished → f (n + 1) s = f n s

/-- Once finished, a `FuelMono` call is unchanged by any amount of extra fuel. -/
theorem FuelMono.le {S T α : Type} {f : Nat → S → Outcome T α} (hf : FuelMono f)
    {n m : Nat} (hnm : n ≤ m) {s : S} (h : (f n s).Finished) : f m s = f n s := by
  induction hnm with
  | refl => rfl
  | step _ ih => rw [hf _ s (ih ▸ h), ih]

/-- `loop` is `FuelMono` when its body is. -/
theorem loop_fuelMono {S α : Type} {body : Nat → S → Step S α}
    (hb : ∀ n s, (body n s).Finished → body (n + 1) s = body n s) : FuelMono (loop body) :=
  loop_succ_of_finished body hb

/-- A loop whose body does not read the fuel is `FuelMono`. -/
theorem loop_const_fuelMono {S α : Type} (body : S → Step S α) :
    FuelMono (loop fun _ => body) :=
  loop_fuelMono fun _ _ _ => rfl

/-! ## §5 A replaying engine -/

/-- The answers a replaying engine gives, each list in the order its calls come. -/
structure Tape where
  opens : List (Code × Option Db)
  closes : List Code
  compiles : List Prepared
  steps : List Code
  /-- What `sqlite3_column_text` returns for every column of every row. -/
  text : Option String
  deriving DecidableEq, Repr

/-- The next answer of a list, and the rest; `d` once the list is used up. -/
def Tape.next {α : Type} (d : α) : List α → α × List α
  | [] => (d, [])
  | a :: as => (a, as)

/-- An engine that answers each call with the next answer on its tape, and `SQLITE_ERROR`
    once that tape is used up. Any run of sqlite can be played back on it, which pins a run
    of the wrapper down at a concrete input. Each statement has one column. -/
def tapeEngine : Engine Tape where
  openDb t _ :=
    let (a, rest) := Tape.next (sqliteError, none) t.opens; ({ t with opens := rest }, a)
  closeDb t _ := let (a, rest) := Tape.next sqliteError t.closes; ({ t with closes := rest }, a)
  prepare t _ _ _ _ :=
    let (a, rest) := Tape.next (.error sqliteError) t.compiles; ({ t with compiles := rest }, a)
  step t _ := let (a, rest) := Tape.next sqliteError t.steps; ({ t with steps := rest }, a)
  finalize t _ := t
  columnCount _ _ := 1
  columnName _ _ _ := ""
  columnText t _ _ := t.text
  columnInt _ _ _ := 0
  columnInt64 _ _ _ := 0
  columnDouble _ _ _ := 0
  columnBytes _ _ _ := 0
  columnBlob _ _ _ := []

end Sqld
