import Sqld.Stream

/-!
# The Current Row: `m_cols` and the Column Accessors

The spec's invariant of the statement stream is that "a non-zero column count implies a
compiled handle exists and the engine currently positions it on a live row", and the
column accessors rest on it. This module reads off the ghost log what the engine last
answered for each statement, and follows `m_cols` through every member call.

## Main definitions
- `lastStep`: the code of a statement's last step since it was compiled.
- `RowReady`: the spec's invariant of `m_cols`; `StepFailed`: what a failing step of
  `next_row` leaves instead.

## Main results
- `column_ok`, `column_error`: what the guards of the accessors let through, and the
  message of each guard.
- `nextRow_step_error`: a failing step of `next_row` keeps `m_cols` on a statement whose
  last step failed, where the accessors still pass their guards.
- `op_rowReady`: every other call keeps `RowReady`, on every path.
- `colText_null`: `col_text` builds a `std::string` from the NULL pointer of an SQL NULL.
-/

namespace Sqld

variable {σ : Type} (e : Engine σ) (c : Conn)

/-! ## §1 What the log says of a statement -/

/-- How a call moves what the log says of statement `st`: a step records its code; a
    finalize, or a compile that hands the handle out again, forgets it. -/
def Call.status (st : Stmt) (acc : Option Code) : Call → Option Code
  | .step s code => if s = st then some code else acc
  | .finalize s => if s = st then none else acc
  | .prepare _ _ _ (.ok (some s) _) => if s = st then none else acc
  | _ => acc

/-- The code of the last step of `st` since it was compiled: `none` when it has not been
    stepped since, or has been finalized. -/
def lastStep (st : Stmt) (log : List Call) : Option Code :=
  log.foldl (Call.status st) none

@[simp] theorem lastStep_append (st : Stmt) (log : List Call) (x : Call) :
    lastStep st (log ++ [x]) = Call.status st (lastStep st log) x := by
  simp [lastStep]

@[simp] theorem lastStep_step (w : World σ) (st : Stmt) :
    lastStep st (w.step e st).2.log = some (w.step e st).1 := by
  simp [Call.status]

/-- **The spec's invariant of `m_cols`**: a non-zero column count means that `m_stmt` is a
    statement whose last step yielded a row. -/
def RowReady (r : Req) (w : World σ) : Prop :=
  r.cols ≠ 0 → ∃ st, r.stmt = some st ∧ lastStep st w.log = some sqliteRow

instance (r : Req) (w : World σ) : Decidable (RowReady r w) :=
  decidable_of_iff
    (r.cols ≠ 0 → (r.stmt.any fun st => lastStep st w.log == some sqliteRow) = true)
    (by unfold RowReady; cases r.stmt <;> simp)

/-- What a failing step of `next_row` leaves: `m_cols` kept, on a statement whose last
    step did not yield a row. -/
def StepFailed (r : Req) (w : World σ) : Prop :=
  r.cols ≠ 0 ∧
    ∃ st code, r.stmt = some st ∧ lastStep st w.log = some code ∧ code ≠ sqliteRow

theorem RowReady.of_cols {r : Req} {w : World σ} (h : r.cols = 0) : RowReady r w :=
  fun hc => absurd h hc

theorem StepFailed.not_rowReady {r : Req} {w : World σ} (h : StepFailed r w) :
    ¬ RowReady r w := by
  obtain ⟨hc, st, code, hst, hlast, hrow⟩ := h
  intro hr
  obtain ⟨st', hst', hlast'⟩ := hr hc
  cases hst.symm.trans hst'
  exact hrow (Option.some.inj (hlast.symm.trans hlast'))

/-- A step that yields a row puts the `Req`'s statement on it. -/
theorem rowReady_of_step {r : Req} {w : World σ} {st : Stmt} (hst : r.stmt = some st)
    (hrow : (w.step e st).1 = sqliteRow) : RowReady r (w.step e st).2 :=
  fun _ => ⟨st, hst, by rw [lastStep_step, hrow]⟩

/-- How a call may leave the current row: ready, or with the engine's error raised and
    `m_cols` kept on a failed step. -/
def RowOutcome {α : Type} (o : Outcome (Req × World σ) α) : Prop :=
  RowReady o.state.1 o.state.2 ∨ ∃ code s, o = .raise (.engine code) s ∧ StepFailed s.1 s.2

theorem RowOutcome.of_state {α : Type} {o : Outcome (Req × World σ) α}
    (h : RowReady o.state.1 o.state.2) : RowOutcome o := .inl h

/-! ## §2 The column accessors -/

variable {e}

/-- An accessor that passes its guards reads column `col` of the current row of `m_stmt`. -/
theorem column_ok {α : Type} {read : σ → Stmt → Nat → α} {r : Req} {w : World σ} {col : Int}
    {v : α} (h : Req.column read r w col = .ok v) :
    ∃ st, r.stmt = some st ∧ r.cols ≠ 0 ∧ 0 ≤ col ∧ col < r.cols ∧
      v = read w.state st col.toNat := by
  unfold Req.column at h
  rcases hst : r.stmt with _ | st <;> simp only [hst] at h
  · cases h
  · split_ifs at h with h0 hcol
    simp only [Except.ok.injEq] at h
    exact ⟨st, rfl, h0, by omega, by omega, h.symm⟩

/-- The guards of the accessors, in order, each with its message. -/
theorem column_error {α : Type} (read : σ → Stmt → Nat → α) (r : Req) (w : World σ)
    (col : Int) :
    (r.stmt = none → Req.column read r w col =
      .error (.usage "column operation called with invalid statement")) ∧
    (r.stmt ≠ none → r.cols = 0 → Req.column read r w col =
      .error (.usage "column operation called when row not available")) ∧
    (r.stmt ≠ none → r.cols ≠ 0 → (col < 0 ∨ col ≥ r.cols) → Req.column read r w col =
      .error (.usage "column operation called with invalid column number")) := by
  unfold Req.column
  rcases r.stmt with _ | st
  · exact ⟨fun _ => rfl, fun h => absurd rfl h, fun h => absurd rfl h⟩
  · refine ⟨fun h => absurd h (Option.some_ne_none st), fun _ h0 => by simp [h0],
      fun _ h0 hcol => ?_⟩
    simp [h0, hcol]

/-! ## §3 `next_row` -/

/-- **A failing step of `next_row` keeps `m_cols`.** On a `Req` holding a row, a step of its
    statement that yields neither a row nor DONE raises the engine's error and leaves
    `m_cols` as it was, on a statement whose last step failed: the spec's invariant no
    longer holds, yet every accessor passes its guards and reads that statement. -/
theorem nextRow_step_error {r : Req} {w : World σ} {st : Stmt} (hst : r.stmt = some st)
    (hc : r.cols ≠ 0) (hrow : (w.step e st).1 ≠ sqliteRow)
    (hdone : (w.step e st).1 ≠ sqliteDone) :
    Req.nextRow e r w = .raise (.engine (w.step e st).1) (r, (w.step e st).2) ∧
      ¬ RowReady r (w.step e st).2 ∧
      ∀ {α : Type} (read : σ → Stmt → Nat → α) (col : Int), 0 ≤ col → col < r.cols →
        Req.column read r (w.step e st).2 col =
          .ok (read (w.step e st).2.state st col.toNat) := by
  refine ⟨by simp [Req.nextRow_eq, hst, hc, hdone, hrow],
    StepFailed.not_rowReady ⟨hc, st, _, hst, lastStep_step e w st, hrow⟩,
    fun read col h0 hlt => ?_⟩
  simp only [Req.column, hst, hc, if_false]
  rw [if_neg (by omega)]

/-- `SELECT 1;` on a fresh `Req`: `exec_select()` stops at its first row, and the next step
    fails with `SQLITE_BUSY`. -/
theorem nextRow_step_error_busy :
    Req.execSelect tapeEngine ⟨some 0⟩ 1 (Req.new.append "SELECT 1;")
        ⟨⟨[], [], [.ok (some 0) 9], [sqliteRow, sqliteBusy], none⟩, []⟩ =
      .ret 1 (⟨some 0, "SELECT 1;", 9, 1⟩, ⟨⟨[], [], [], [sqliteBusy], none⟩,
        [.prepare (some 0) 0 10 (.ok (some 0) 9), .step 0 sqliteRow]⟩) ∧
    (Req.nextRow tapeEngine ⟨some 0, "SELECT 1;", 9, 1⟩ ⟨⟨[], [], [], [sqliteBusy], none⟩,
        [.prepare (some 0) 0 10 (.ok (some 0) 9), .step 0 sqliteRow]⟩ =
      .raise (.engine sqliteBusy) (⟨some 0, "SELECT 1;", 9, 1⟩, ⟨⟨[], [], [], [], none⟩,
        [.prepare (some 0) 0 10 (.ok (some 0) 9), .step 0 sqliteRow, .step 0 sqliteBusy]⟩) ∧
      ¬ RowReady (σ := Tape) ⟨some 0, "SELECT 1;", 9, 1⟩ ⟨⟨[], [], [], [], none⟩,
        [.prepare (some 0) 0 10 (.ok (some 0) 9), .step 0 sqliteRow, .step 0 sqliteBusy]⟩ ∧
      ∀ {α : Type} (read : Tape → Stmt → Nat → α) (col : Int), 0 ≤ col → col < 1 →
        Req.column read ⟨some 0, "SELECT 1;", 9, 1⟩ ⟨⟨[], [], [], [], none⟩,
          [.prepare (some 0) 0 10 (.ok (some 0) 9), .step 0 sqliteRow, .step 0 sqliteBusy]⟩ col =
          .ok (read ⟨[], [], [], [], none⟩ 0 col.toNat)) :=
  ⟨rfl, nextRow_step_error (r := ⟨some 0, "SELECT 1;", 9, 1⟩) rfl (by decide) (by decide)
    (by decide)⟩

/-- `next_row` from a state where the invariant holds leaves it, or raises the engine's
    error with `m_cols` kept on the failed step. -/
theorem nextRow_rowOutcome {r : Req} {w : World σ} (h : RowReady r w) :
    RowOutcome (Req.nextRow e r w) := by
  rw [Req.nextRow_eq]
  rcases hst : r.stmt with _ | st
  · exact .of_state h
  · simp only
    split_ifs with h0 hd hrow
    · exact .of_state h
    · exact .of_state (RowReady.of_cols rfl)
    · exact .inr ⟨(w.step e st).1, (r, (w.step e st).2), rfl, h0, st, _, hst,
        lastStep_step e w st, hrow⟩
    · exact .of_state (rowReady_of_step e hst (not_not.1 hrow))

theorem RowOutcome.unit {α : Type} {o : Outcome (Req × World σ) α} (h : RowOutcome o) :
    RowOutcome o.unit := by
  rcases h with h | ⟨code, s, rfl, hf⟩
  · exact .inl (by simpa using h)
  · exact .inr ⟨code, s, rfl, hf⟩

/-! ## §4 Every other call keeps the invariant -/

variable {c}

theorem execSelectBody_next_cols {r r' : Req} {w w' : World σ}
    (h : Req.execSelectBody e c (r, w) = .next (r', w')) : r'.cols = r.cols := by
  rw [Req.execSelectBody_eq] at h
  split_ifs at h
  rcases hc : (w.release e r.stmt).compile e c r.sql r.pos with
    ⟨⟨_ | st, used⟩ | code, w1⟩ <;> simp only [hc, reduceCtorEq] at h
  split_ifs at h
  simp only [Step.next.injEq, Prod.mk.injEq] at h
  rw [← h.1]

/-- A pass of `exec_select`'s loop from a `Req` with no row ends with the invariant: at a
    row, `m_stmt` is the statement it has just stepped to that row. -/
theorem execSelectBody_exit_rowReady {r : Req} {w : World σ} {o} (hr : r.cols = 0)
    (h : Req.execSelectBody e c (r, w) = .exit o) : RowReady o.state.1 o.state.2 := by
  rw [Req.execSelectBody_eq] at h
  split_ifs at h
  · cases h
    exact .of_cols hr
  rcases hc : (w.release e r.stmt).compile e c r.sql r.pos with
    ⟨⟨_ | st, used⟩ | code, w1⟩ <;> simp only [hc, Step.exit.injEq] at h
  · subst h
    exact .of_cols hr
  · split_ifs at h with hd hrow <;> cases h
    · exact .of_cols hr
    · exact rowReady_of_step e (r := ⟨some st, r.sql, r.pos + used, _⟩) rfl (not_not.1 hrow)
  · subst h
    exact .of_cols hr

theorem execSelect_rowReady (n : Nat) {r : Req} {w : World σ} (h : RowReady r w) :
    RowReady (Req.execSelect e c n r w).state.1 (Req.execSelect e c n r w).state.2 := by
  unfold Req.execSelect
  split
  · exact h
  · next hr =>
    exact loop_induction (fun _ => Req.execSelectBody e c) (fun s => s.1.cols = 0)
      (fun o => RowReady o.state.1 o.state.2) (fun _ h => .of_cols h)
      (fun _ _ _ h hb => (execSelectBody_next_cols hb).trans h)
      (fun _ _ _ h hb => execSelectBody_exit_rowReady h hb) n (r, w) (not_not.1 hr)

theorem drainBody_exit {s : Req × World σ} {o} (h : Req.drainBody e s = .exit o) :
    o = (Req.nextRow e s.1 s.2).unit := by
  obtain ⟨r, w⟩ := s
  simp only [Req.drainBody] at h
  rcases hn : Req.nextRow e r w with ⟨_ | k, s⟩ | ⟨x, s⟩ | s <;>
    simp only [hn, reduceCtorEq, Step.exit.injEq] at h <;> simp [← h, Outcome.unit]

theorem drainLoop_rowOutcome (n : Nat) {s : Req × World σ} (h : RowReady s.1 s.2) :
    RowOutcome (loop (fun _ => Req.drainBody e) n s) := by
  refine loop_induction _ (fun s => RowReady s.1 s.2) RowOutcome (fun _ h => .of_state h)
    (fun _ t t' h hb => ?_) (fun _ t o h hb => drainBody_exit hb ▸ (nextRow_rowOutcome h).unit)
    n s h
  obtain ⟨k, hk⟩ := drainBody_next hb
  rcases (hk ▸ nextRow_rowOutcome h : RowOutcome (Outcome.ret (k + 1) t')) with
    h' | ⟨_, _, h', _⟩
  · exact h'
  · cases h'

theorem execLoop_rowOutcome (n : Nat) {s : Req × World σ} (h : RowReady s.1 s.2) :
    RowOutcome (loop (Req.execBody e c) n s) := by
  refine loop_induction _ (fun s => RowReady s.1 s.2) RowOutcome (fun _ h => .of_state h)
    (fun m t t' h hb => ?_) (fun m t o h hb => ?_) n s h
  · obtain ⟨k, s1, hx, hd⟩ := execBody_next hb
    have h1 := execSelect_rowReady (e := e) (c := c) m h
    rw [hx] at h1
    rcases (hd ▸ drainLoop_rowOutcome m h1 : RowOutcome (Outcome.ret () t')) with
      h' | ⟨_, _, h', _⟩
    · exact h'
    · cases h'
  · rcases execBody_exit hb with rfl | ⟨k, s1, hx, rfl⟩
    · exact RowOutcome.unit (.of_state (execSelect_rowReady m h))
    · have h1 := execSelect_rowReady (e := e) (c := c) m h
      rw [hx] at h1
      exact drainLoop_rowOutcome m h1

/-- **Every call but a failing `next_row` keeps the row invariant.** From a state where a
    non-zero `m_cols` means `m_stmt`'s last step yielded a row, every call of a client,
    on every path (it returns, raises, or is cut off), leaves a state where the same
    holds, except a `next_row`, alone or inside `exec`, whose step fails. -/
theorem op_rowReady (n : Nat) (op : Req.Op) {r : Req} {w : World σ} (h : RowReady r w) :
    RowReady (Req.Op.run e c n op r w).state.1 (Req.Op.run e c n op r w).state.2 ∨
      (op = .nextRow ∨ op = .exec) ∧
        ∃ code s, Req.Op.run e c n op r w = .raise (.engine code) s ∧ StepFailed s.1 s.2 := by
  cases op with
  | append => exact .inl h
  | clear => exact .inl (.of_cols (by simp [Req.Op.run, Req.clear, Outcome.state]))
  | reset => exact .inl (.of_cols (by simp [Req.Op.run, Req.reset, Outcome.state]))
  | execSelect => exact .inl (by simpa [Req.Op.run] using execSelect_rowReady n h)
  | nextRow =>
    rcases (nextRow_rowOutcome h).unit with h' | ⟨code, s, hs, hf⟩
    · exact .inl h'
    · exact .inr ⟨.inl rfl, code, s, hs, hf⟩
  | exec =>
    by_cases hc : r.cols ≠ 0
    · exact .inl (by simpa [Req.Op.run, Req.exec, hc] using h)
    · rcases execLoop_rowOutcome (c := c) n (s := (r, w)) h with h' | ⟨code, s, hs, hf⟩
      · exact .inl (by simpa [Req.Op.run, Req.exec, hc] using h')
      · exact .inr ⟨.inr rfl, code, s, by simpa [Req.Op.run, Req.exec, hc] using hs, hf⟩

theorem op_rowReady_exec :
    RowReady (σ := List Stmt) (Req.new.append "SELECT 1;") ⟨[], []⟩ ∧
    (RowReady
        (Req.Op.run oneRowEngine ⟨some 0⟩ 3 .exec (Req.new.append "SELECT 1;") ⟨[], []⟩).state.1
        (Req.Op.run oneRowEngine ⟨some 0⟩ 3 .exec (Req.new.append "SELECT 1;") ⟨[], []⟩).state.2 ∨
      (Req.Op.exec = .nextRow ∨ Req.Op.exec = .exec) ∧ ∃ code s,
        Req.Op.run oneRowEngine ⟨some 0⟩ 3 .exec (Req.new.append "SELECT 1;") ⟨[], []⟩ =
          .raise (.engine code) s ∧ StepFailed s.1 s.2) :=
  ⟨.of_cols rfl, op_rowReady 3 .exec (.of_cols rfl)⟩

/-! ## §5 `col_text` on an SQL NULL -/

/-- **`col_text` on an SQL NULL.** When the guards pass and the engine returns the NULL
    pointer for the column's text, as `sqlite3_column_text` does for an SQL NULL, both
    overloads of `col_text` build a `std::string` from it. -/
theorem colText_null {r : Req} {w : World σ} {st : Stmt} {col : Int} (hst : r.stmt = some st)
    (hc : r.cols ≠ 0) (h0 : 0 ≤ col) (hlt : col < r.cols)
    (hnull : e.columnText w.state st col.toNat = none) :
    Req.colText e r w col = .error .nullString ∧
      Req.colTextAssign e r w col = .error .nullString := by
  have hcol : Req.column e.columnText r w col = .ok none := by
    simp only [Req.column, hst, hc, if_false, hnull]
    rw [if_neg (by omega)]
  simp only [Req.colText, Req.colTextAssign, hcol]
  exact ⟨rfl, rfl⟩

/-- `SELECT NULL;` on a fresh `Req`: `exec_select()` stops at its row, whose one column is
    NULL, and `col_text(0)` reads it. -/
theorem colText_null_select :
    Req.execSelect tapeEngine ⟨some 0⟩ 1 (Req.new.append "SELECT NULL;")
        ⟨⟨[], [], [.ok (some 0) 12], [sqliteRow], none⟩, []⟩ =
      .ret 1 (⟨some 0, "SELECT NULL;", 12, 1⟩, ⟨⟨[], [], [], [], none⟩,
        [.prepare (some 0) 0 13 (.ok (some 0) 12), .step 0 sqliteRow]⟩) ∧
    Req.colText tapeEngine ⟨some 0, "SELECT NULL;", 12, 1⟩ ⟨⟨[], [], [], [], none⟩,
        [.prepare (some 0) 0 13 (.ok (some 0) 12), .step 0 sqliteRow]⟩ 0 = .error .nullString ∧
    Req.colTextAssign tapeEngine ⟨some 0, "SELECT NULL;", 12, 1⟩ ⟨⟨[], [], [], [], none⟩,
        [.prepare (some 0) 0 13 (.ok (some 0) 12), .step 0 sqliteRow]⟩ 0 = .error .nullString :=
  ⟨rfl, colText_null rfl (by decide) (by decide) (by decide) rfl⟩

end Sqld
