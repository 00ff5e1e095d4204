import Sqld.Engine

/-!
# `scc::sqld::Req`, the Statement Stream

The members of `Req` in `src/sqld.cc`, one Lean function each, over the object `Req` and
the `World` it talks to. The `while (1)` loops of `exec_select` and `exec`, and the
`while (next_row())` loop of `exec`, are `loop` over a named body, so that a lemma about
one pass of a body is stated once and the run lemmas follow by induction on the fuel.

## Main definitions
- `Req`, `Conn`: the object's members, and the connection handle it borrows.
- `Req.finalize`, `Req.clear`, `Req.reset`, `Req.prepare`.
- `Req.execSelect`, `Req.nextRow`, `Req.exec`.
- `Req.column` and the accessors `colName`, `colText`, `colInt`, `colInt64`, `colReal`,
  `colBlob`.
- `Req.Op`: the calls a client makes, and `Req.Op.run`.

## Main results
- `Req.prepare_eq`, `Req.execSelectBody_eq`, `Req.nextRow_eq`: each member in the normal
  form that later modules reason about.
- `Req.execSelect_mono`, `Req.exec_fuelMono`: more fuel does not change a finished call.
-/

namespace Sqld

/-! ## §1 The objects -/

/-- `scc::sqld::Conn`: the handle `m_db`, NULL when closed. -/
structure Conn where
  db : Option Db
  deriving DecidableEq, Repr

/-- The members of `scc::sqld::Req` other than the borrowed connection: the compiled
    statement `m_stmt`, the text of the `m_sql` stream, the offset `m_pos` of the next
    statement and the column count `m_cols` of the current row. -/
structure Req where
  stmt : Option Stmt
  sql : String
  pos : Nat
  cols : Nat
  deriving DecidableEq, Repr

namespace World

variable {σ : Type} (e : Engine σ) (w : World σ)

/-- `sqlite3_finalize` on the statement, if there is one. -/
def release : Option Stmt → World σ
  | none => w
  | some st => w.finalize e st

/-- The compile call of `Req::prepare` (line 182): `sqlite3_prepare_v2` from byte `pos` of
    `sql`, with `nByte = |sql| + 1` ("include 0 character"). -/
def compile (c : Conn) (sql : String) (pos : Nat) : Prepared × World σ :=
  w.prepare e c.db sql pos (sql.utf8ByteSize + 1)

@[simp] theorem release_none : w.release e none = w := rfl
@[simp] theorem release_some (st : Stmt) : w.release e (some st) = w.finalize e st := rfl

@[simp] theorem release_log (o : Option Stmt) :
    (w.release e o).log = w.log ++ o.toList.map Call.finalize := by
  cases o <;> simp [release]

theorem compile_log {c : Conn} {sql : String} {pos : Nat} {a : Prepared} {w' : World σ}
    (h : w.compile e c sql pos = (a, w')) :
    w'.log = w.log ++ [.prepare c.db pos (sql.utf8ByteSize + 1) a] := by
  rw [show w' = (w.compile e c sql pos).2 by rw [h], show a = (w.compile e c sql pos).1 by rw [h]]
  rfl

end World

namespace Req

variable {σ : Type} (e : Engine σ) (c : Conn)

/-- `Req::Req(Conn&)`. -/
def new : Req := ⟨none, "", 0, 0⟩

/-- `sql() << text`. -/
def append (r : Req) (text : String) : Req := { r with sql := r.sql ++ text }

/-- The byte length of the `m_sql` stream, `m_sql.str().size()`. -/
def size (r : Req) : Nat := r.sql.utf8ByteSize

/-! ## §2 Finalize, clear, reset, prepare -/

/-- `Req::finalize`. -/
def finalize (r : Req) (w : World σ) : Req × World σ :=
  match r.stmt with
  | none => (r, w)
  | some st => ({ r with stmt := none }, w.finalize e st)

/-- `Req::~Req`. -/
def destroy (r : Req) (w : World σ) : World σ := (finalize e r w).2

/-- `Req::clear`. -/
def clear (r : Req) (w : World σ) : Req × World σ :=
  let (r, w) := finalize e r w
  ({ r with sql := "", pos := 0, cols := 0 }, w)

/-- `Req::reset`. -/
def reset (r : Req) (w : World σ) : Req × World σ :=
  let (r, w) := finalize e r w
  ({ r with pos := 0, cols := 0 }, w)

/-- `Req::prepare`: release the last statement, then compile the next one from `m_pos`
    unless the stream is used up, advancing `m_pos` by what the engine consumed. -/
def prepare (r : Req) (w : World σ) : Outcome (Req × World σ) Unit :=
  let (r, w) := finalize e r w
  if r.size ≤ r.pos then .ret () (r, w)
  else
    match w.compile e c r.sql r.pos with
    | (.error code, w) => .raise (.engine code) (r, w)
    | (.ok stmt used, w) => .ret () ({ r with stmt := stmt, pos := r.pos + used }, w)

@[simp] theorem finalize_eq (r : Req) (w : World σ) :
    finalize e r w = ({ r with stmt := none }, w.release e r.stmt) := by
  rcases r with ⟨_ | st, sql, pos, cols⟩ <;> rfl

@[simp] theorem size_stmt (r : Req) (o : Option Stmt) : size { r with stmt := o } = r.size := rfl
@[simp] theorem size_cols (r : Req) (n : Nat) : size { r with cols := n } = r.size := rfl
@[simp] theorem size_pos (r : Req) (n : Nat) : size { r with pos := n } = r.size := rfl

/-- `Req::prepare` in normal form: the statement is always released first. -/
theorem prepare_eq (r : Req) (w : World σ) :
    prepare e c r w =
      if r.size ≤ r.pos then .ret () ({ r with stmt := none }, w.release e r.stmt)
      else
        match (w.release e r.stmt).compile e c r.sql r.pos with
        | (.error code, w) => .raise (.engine code) ({ r with stmt := none }, w)
        | (.ok stmt used, w) => .ret () ({ r with stmt := stmt, pos := r.pos + used }, w) := by
  simp only [prepare, finalize_eq, size_stmt]

/-! ## §3 `exec_select`, `next_row`, `exec` -/

/-- One pass of the `while (1)` loop of `Req::exec_select`: prepare the next statement and
    step it once; a statement that is DONE at once sends the loop round again. -/
def execSelectBody : Req × World σ → Step (Req × World σ) Nat
  | (r, w) =>
    match prepare e c r w with
    | .ret () (r, w) =>
      match r.stmt with
      | none => .exit (.ret 0 (r, w))
      | some st =>
        let (code, w) := w.step e st
        if code = sqliteDone then .next (r, w)
        else if code ≠ sqliteRow then .exit (.raise (.engine code) (r, w))
        else
          let r := { r with cols := e.columnCount w.state st }
          .exit (.ret r.cols (r, w))
    | .raise x s => .exit (.raise x s)
    | .spin s => .exit (.spin s)

/-- `Req::exec_select`, with at most `fuel` passes of its loop. -/
def execSelect (fuel : Nat) (r : Req) (w : World σ) : Outcome (Req × World σ) Nat :=
  if r.cols ≠ 0 then .raise (.usage "exec_select() called with current row data") (r, w)
  else loop (fun _ => execSelectBody e c) fuel (r, w)

/-- `Req::next_row`. -/
def nextRow (r : Req) (w : World σ) : Outcome (Req × World σ) Nat :=
  match r.stmt with
  | none => .raise (.usage "next_row() called with invalid statement") (r, w)
  | some st =>
    if r.cols = 0 then .raise (.usage "next_row() called without current row data") (r, w)
    else
      let (code, w) := w.step e st
      if code = sqliteDone then .ret 0 ({ r with cols := 0 }, w)
      else if code ≠ sqliteRow then .raise (.engine code) (r, w)
      else .ret (e.columnCount w.state st) (r, w)

/-- One pass of `while (next_row()) {}` in `Req::exec`. -/
def drainBody : Req × World σ → Step (Req × World σ) Unit
  | (r, w) =>
    match nextRow e r w with
    | .ret 0 s => .exit (.ret () s)
    | .ret _ s => .next s
    | .raise x s => .exit (.raise x s)
    | .spin s => .exit (.spin s)

/-- One pass of the `while (1)` loop of `Req::exec`: run `exec_select`, and when it
    reports a row, drain the statement's rows with `next_row` and go round again. -/
def execBody (fuel : Nat) : Req × World σ → Step (Req × World σ) Unit
  | (r, w) =>
    match execSelect e c fuel r w with
    | .ret 0 s => .exit (.ret () s)
    | .ret _ s =>
      match loop (fun _ => drainBody e) fuel s with
      | .ret () s => .next s
      | .raise x s => .exit (.raise x s)
      | .spin s => .exit (.spin s)
    | .raise x s => .exit (.raise x s)
    | .spin s => .exit (.spin s)

/-- `Req::exec`, with at most `fuel` passes of each of its loops. -/
def exec (fuel : Nat) (r : Req) (w : World σ) : Outcome (Req × World σ) Unit :=
  if r.cols ≠ 0 then .raise (.usage "exec() called with current row data") (r, w)
  else loop (execBody e c) fuel (r, w)

/-- One pass of `exec_select`'s loop in normal form: the statement is released, and the
    next one compiled and stepped once. -/
theorem execSelectBody_eq (r : Req) (w : World σ) :
    execSelectBody e c (r, w) =
      if r.size ≤ r.pos then .exit (.ret 0 ({ r with stmt := none }, w.release e r.stmt))
      else
        match (w.release e r.stmt).compile e c r.sql r.pos with
        | (.error code, w) => .exit (.raise (.engine code) ({ r with stmt := none }, w))
        | (.ok none used, w) => .exit (.ret 0 ({ r with stmt := none, pos := r.pos + used }, w))
        | (.ok (some st) used, w) =>
          if (w.step e st).1 = sqliteDone then
            .next ({ r with stmt := some st, pos := r.pos + used }, (w.step e st).2)
          else if (w.step e st).1 ≠ sqliteRow then
            .exit (.raise (.engine (w.step e st).1)
              ({ r with stmt := some st, pos := r.pos + used }, (w.step e st).2))
          else
            let n := e.columnCount (w.step e st).2.state st
            .exit (.ret n ({ r with stmt := some st, pos := r.pos + used, cols := n },
              (w.step e st).2)) := by
  rw [execSelectBody, prepare_eq]
  by_cases h : r.size ≤ r.pos
  · simp only [if_pos h]
  · simp only [if_neg h]
    rcases (w.release e r.stmt).compile e c r.sql r.pos with ⟨⟨_ | st, used⟩ | code, w'⟩ <;> rfl

theorem execSelectBody_of_le {r : Req} {w : World σ} (h : r.sql.utf8ByteSize ≤ r.pos) :
    execSelectBody e c (r, w) = .exit (.ret 0 ({ r with stmt := none }, w.release e r.stmt)) := by
  rw [execSelectBody_eq, if_pos (show r.size ≤ r.pos from h)]

theorem execSelectBody_of_lt {r : Req} {w : World σ} (h : r.pos < r.sql.utf8ByteSize) :
    execSelectBody e c (r, w) =
      match (w.release e r.stmt).compile e c r.sql r.pos with
      | (.error code, w) => .exit (.raise (.engine code) ({ r with stmt := none }, w))
      | (.ok none used, w) => .exit (.ret 0 ({ r with stmt := none, pos := r.pos + used }, w))
      | (.ok (some st) used, w) =>
        if (w.step e st).1 = sqliteDone then
          .next ({ r with stmt := some st, pos := r.pos + used }, (w.step e st).2)
        else if (w.step e st).1 ≠ sqliteRow then
          .exit (.raise (.engine (w.step e st).1)
            ({ r with stmt := some st, pos := r.pos + used }, (w.step e st).2))
        else
          let n := e.columnCount (w.step e st).2.state st
          .exit (.ret n ({ r with stmt := some st, pos := r.pos + used, cols := n },
            (w.step e st).2)) := by
  rw [execSelectBody_eq, if_neg (show ¬ r.size ≤ r.pos from Nat.not_le.2 h)]

/-- `Req::next_row` in normal form. -/
theorem nextRow_eq (r : Req) (w : World σ) :
    nextRow e r w =
      match r.stmt with
      | none => .raise (.usage "next_row() called with invalid statement") (r, w)
      | some st =>
        if r.cols = 0 then .raise (.usage "next_row() called without current row data") (r, w)
        else if (w.step e st).1 = sqliteDone then .ret 0 ({ r with cols := 0 }, (w.step e st).2)
        else if (w.step e st).1 ≠ sqliteRow then
          .raise (.engine (w.step e st).1) (r, (w.step e st).2)
        else .ret (e.columnCount (w.step e st).2.state st) (r, (w.step e st).2) := rfl

theorem execSelect_fuelMono : FuelMono fun n (s : Req × World σ) => execSelect e c n s.1 s.2 := by
  intro n ⟨r, w⟩ h
  simp only [execSelect] at h ⊢
  split
  · rfl
  · rw [if_neg ‹_›] at h
    exact loop_const_fuelMono _ n _ h

theorem execSelect_succ {n : Nat} {r : Req} {w : World σ} (h : (execSelect e c n r w).Finished) :
    execSelect e c (n + 1) r w = execSelect e c n r w :=
  execSelect_fuelMono e c n (r, w) h

theorem execSelect_mono {m n : Nat} {r : Req} {w : World σ} (hmn : m ≤ n)
    (h : (execSelect e c m r w).Finished) : execSelect e c n r w = execSelect e c m r w :=
  (execSelect_fuelMono e c).le hmn (s := (r, w)) h

theorem execBody_finished {n : Nat} {s : Req × World σ} (h : (execBody e c n s).Finished) :
    execBody e c (n + 1) s = execBody e c n s := by
  obtain ⟨r, w⟩ := s
  have hdrain := loop_const_fuelMono (drainBody e) n
  simp only [execBody] at h ⊢
  cases hx : execSelect e c n r w with
  | ret k s =>
    rw [execSelect_succ e c (by rw [hx]; trivial), hx]
    rw [hx] at h
    rcases k with _ | k
    · rfl
    · simp only at h ⊢
      cases hd : loop (fun _ => drainBody e) n s with
      | spin => rw [hd] at h; exact absurd h id
      | _ => rw [hdrain s (by rw [hd]; trivial), hd]
  | raise x s => rw [execSelect_succ e c (by rw [hx]; trivial), hx]
  | spin s => rw [hx] at h; exact absurd h id

theorem execLoop_fuelMono : FuelMono (loop (execBody e c)) :=
  loop_fuelMono fun _ _ => execBody_finished e c

theorem exec_fuelMono : FuelMono fun n (s : Req × World σ) => exec e c n s.1 s.2 := by
  intro n ⟨r, w⟩ h
  simp only [exec] at h ⊢
  split
  · rfl
  · rw [if_neg ‹_›] at h
    exact execLoop_fuelMono e c n _ h

/-! ## §4 What one call of `exec_select` does -/

/-- The statements one call of `exec_select` passes over from byte `pos` of `sql`: each
    compiled, DONE at its first step, and finalized when the next one is prepared. -/
inductive Skips (sql : String) : Nat → World σ → Nat → World σ → Prop
  | refl {pos : Nat} {w : World σ} : Skips sql pos w pos w
  | done {pos used pos' : Nat} {st : Stmt} {w w0 w1 w' : World σ} : pos < sql.utf8ByteSize →
      w.compile e c sql pos = (.ok (some st) used, w0) → w0.step e st = (sqliteDone, w1) →
      Skips sql (pos + used) (w1.finalize e st) pos' w' → Skips sql pos w pos' w'

/-- Where a call of `exec_select` on a `Req` with text `sql` and column count `cols`
    stops, once it has reached byte `pos` in engine state `w`. -/
inductive Stop (sql : String) (cols pos : Nat) (w : World σ) :
    Outcome (Req × World σ) Nat → Prop
  /-- The stream is used up. -/
  | atEnd : sql.utf8ByteSize ≤ pos → Stop sql cols pos w (.ret 0 (⟨none, sql, pos, cols⟩, w))
  /-- Only whitespace or comments are left. -/
  | noSql {used : Nat} {w' : World σ} : pos < sql.utf8ByteSize →
      w.compile e c sql pos = (.ok none used, w') →
      Stop sql cols pos w (.ret 0 (⟨none, sql, pos + used, cols⟩, w'))
  /-- A statement yields its first row. -/
  | row {used : Nat} {st : Stmt} {w0 w' : World σ} : pos < sql.utf8ByteSize →
      w.compile e c sql pos = (.ok (some st) used, w0) → w0.step e st = (sqliteRow, w') →
      Stop sql cols pos w (.ret (e.columnCount w'.state st)
        (⟨some st, sql, pos + used, e.columnCount w'.state st⟩, w'))
  /-- The compile fails. -/
  | compileError {code : Code} {w' : World σ} : pos < sql.utf8ByteSize →
      w.compile e c sql pos = (.error code, w') →
      Stop sql cols pos w (.raise (.engine code) (⟨none, sql, pos, cols⟩, w'))
  /-- The first step of a statement fails. -/
  | stepError {used : Nat} {st : Stmt} {code : Code} {w0 w' : World σ} :
      pos < sql.utf8ByteSize → w.compile e c sql pos = (.ok (some st) used, w0) →
      w0.step e st = (code, w') → code ≠ sqliteRow → code ≠ sqliteDone →
      Stop sql cols pos w (.raise (.engine code) (⟨some st, sql, pos + used, cols⟩, w'))

/-- **The spec of `exec_select`'s loop.** A finished run releases the `Req`'s statement,
    passes over the statements that are DONE at once, and stops as `Stop` says. -/
theorem execSelectLoop_cases {n : Nat} {r : Req} {w : World σ} {o}
    (h : loop (fun _ => execSelectBody e c) n (r, w) = o) (hfin : o.Finished) :
    ∃ pos w', Skips e c r.sql r.pos (w.release e r.stmt) pos w' ∧
      Stop e c r.sql r.cols pos w' o := by
  induction n generalizing r w with
  | zero => subst h; exact absurd hfin id
  | succ n ih =>
    rw [loop_succ, execSelectBody_eq] at h
    by_cases hend : r.size ≤ r.pos
    · rw [if_pos hend] at h
      exact ⟨_, _, .refl, h ▸ .atEnd hend⟩
    rw [if_neg hend] at h
    have hlt : r.pos < r.sql.utf8ByteSize := Nat.not_le.1 hend
    rcases hc : (w.release e r.stmt).compile e c r.sql r.pos with ⟨⟨_ | st, used⟩ | code, w1⟩ <;>
      simp only [hc] at h
    · exact ⟨_, _, .refl, h ▸ .noSql hlt hc⟩
    · rcases hs : w1.step e st with ⟨code, w2⟩
      simp only [hs] at h
      by_cases hd : code = sqliteDone
      · subst hd
        rw [if_pos rfl] at h
        obtain ⟨pos, w', hsk, hstop⟩ := ih h
        exact ⟨pos, w', .done hlt hc hs hsk, hstop⟩
      rw [if_neg hd] at h
      by_cases hr : code = sqliteRow
      · subst hr
        rw [if_neg (not_not.2 rfl)] at h
        exact ⟨_, _, .refl, h ▸ .row hlt hc hs⟩
      · rw [if_pos hr] at h
        exact ⟨_, _, .refl, h ▸ .stepError hlt hc hs hr hd⟩
    · exact ⟨_, _, .refl, h ▸ .compileError hlt hc⟩

/-! ## §5 Column accessors -/

/-- The three guards every column accessor of `Req` starts with, then the engine's reader
    for the current row. A failed guard raises and changes nothing. -/
def column {α : Type} (read : σ → Stmt → Nat → α) (r : Req) (w : World σ) (col : Int) :
    Except Error α :=
  match r.stmt with
  | none => .error (.usage "column operation called with invalid statement")
  | some st =>
    if r.cols = 0 then .error (.usage "column operation called when row not available")
    else if col < 0 ∨ col ≥ r.cols then
      .error (.usage "column operation called with invalid column number")
    else .ok (read w.state st col.toNat)

/-- `std::string` built from a `const char*`: the text, or undefined behaviour for NULL. -/
def cString : Option String → Except Error String
  | none => .error .nullString
  | some s => .ok s

/-- `Req::col_name`, both overloads. -/
def colName (r : Req) (w : World σ) (col : Int) : Except Error String :=
  column e.columnName r w col

/-- `Req::col_text(int)`: the engine's pointer converted to `std::string`. -/
def colText (r : Req) (w : World σ) (col : Int) : Except Error String :=
  (column e.columnText r w col).bind cString

/-- `Req::col_text(int, std::string&)`: the new value of `str`, assigned from the engine's
    pointer. -/
def colTextAssign (r : Req) (w : World σ) (col : Int) : Except Error String :=
  (column e.columnText r w col).bind cString

/-- `Req::col_int`. -/
def colInt (r : Req) (w : World σ) (col : Int) : Except Error Int := column e.columnInt r w col

/-- `Req::col_int64`. -/
def colInt64 (r : Req) (w : World σ) (col : Int) : Except Error Int :=
  column e.columnInt64 r w col

/-- `Req::col_real`. -/
def colReal (r : Req) (w : World σ) (col : Int) : Except Error Float :=
  column e.columnDouble r w col

/-- `Req::col_blob`: `sqlite3_column_bytes` bytes from where `sqlite3_column_blob` points. -/
def colBlob (r : Req) (w : World σ) (col : Int) : Except Error (List UInt8) :=
  column (fun s st i => (e.columnBlob s st i).take (e.columnBytes s st i)) r w col

/-! ## §6 A client's calls -/

/-- A member call a client makes on a `Req`. The column accessors read the engine and
    change nothing, and are left out. -/
inductive Op where
  | append (text : String)
  | clear
  | reset
  | execSelect
  | nextRow
  | exec
  deriving DecidableEq, Repr

/-- How a call ends, with the value it returns dropped; `fuel` bounds the passes of each
    loop in it. -/
def Op.run (fuel : Nat) : Op → Req → World σ → Outcome (Req × World σ) Unit
  | .append text, r, w => .ret () (r.append text, w)
  | .clear, r, w => .ret () (Req.clear e r w)
  | .reset, r, w => .ret () (Req.reset e r w)
  | .execSelect, r, w => (Req.execSelect e c fuel r w).unit
  | .nextRow, r, w => (Req.nextRow e r w).unit
  | .exec, r, w => Req.exec e c fuel r w

end Req

end Sqld
