import Sqld.Row

/-!
# Where a Failed Call Leaves the Stream

A failed `exec()` has run the statements before some statement to DONE, and that
statement's compile or one of its steps has failed (`Fails`).
A client that catches the error and calls again starts from the `Req` the failure left,
so this module says what that `Req` is. It differs by where the failure came:

* `Req::prepare` throws before it advances `m_pos`, so after a failed compile no statement
  is held and the offset is the failed statement's: the next call compiles it again;
* `exec_select` has advanced `m_pos` before it steps, and a failed first step leaves the
  statement in `m_stmt` with no row: the next call finalizes it and goes on with the
  statement after, so the failed statement is not run again;
* `next_row` leaves `m_cols` as it was when its step fails, so a failure after a row, in
  `exec`'s drain loop, leaves a `Req` that claims a row: every later `exec()` and
  `exec_select()` raises the usage error, until `clear()` or `reset()`.

## Main definitions
- `RunsTo`: statements run to DONE, one after another, from one offset to another.
- `ExecFailure`: the statement at an offset fails, and the `Req` the failure leaves.

## Main results
- `execSelectLoop_raise`, `execLoop_raise`: a failed run of either loop.
- `exec_failure_resume`: where a failed `exec_select()` or `exec()` leaves the `Req`.
- `op_usage`: a usage error comes from the call's own guard and changes nothing.
-/

namespace Sqld

variable {σ : Type} (e : Engine σ) (c : Conn)

/-! ## §1 Runs up to a statement, and how it fails -/

/-- `RunsTo e c sql pos w pos' w'`: the statements of `sql` from byte `pos` up to byte `pos'`,
    run one after another, each compiled once, stepped until DONE and finalized. -/
inductive RunsTo (sql : String) : Nat → World σ → Nat → World σ → Prop
  | refl {pos : Nat} {w : World σ} : RunsTo sql pos w pos w
  | stmt {pos used pos' : Nat} {st : Stmt} {w w0 w1 w' : World σ} {rows} :
      pos < sql.utf8ByteSize → w.compile e c sql pos = (.ok (some st) used, w0) →
      Steps e st w0 rows w1 → RunsTo sql (pos + used) (w1.finalize e st) pos' w' →
      RunsTo sql pos w pos' w'

/-- `ExecFailure e c sql pos w code s`: the statement of `sql` at byte `pos` fails with `code`
    from engine state `w`, and the failure leaves the `Req` and the world `s`. -/
inductive ExecFailure (sql : String) (pos : Nat) (w : World σ) (code : Code) :
    Req × World σ → Prop
  /-- Its compile fails: the `Req` holds nothing and stands at it. -/
  | compile {w' : World σ} : pos < sql.utf8ByteSize → w.compile e c sql pos = (.error code, w') →
      ExecFailure sql pos w code (⟨none, sql, pos, 0⟩, w')
  /-- Its first step fails: the `Req` holds it, stands after it, and has no row. -/
  | step {used : Nat} {st : Stmt} {w0 w' : World σ} : pos < sql.utf8ByteSize →
      w.compile e c sql pos = (.ok (some st) used, w0) → w0.step e st = (code, w') →
      code ≠ sqliteRow → code ≠ sqliteDone →
      ExecFailure sql pos w code (⟨some st, sql, pos + used, 0⟩, w')
  /-- A step after its first row fails: the `Req` holds it, stands after it, and keeps the
      column count of that row. -/
  | drain {used k : Nat} {st : Stmt} {w0 w1 w' : World σ} : pos < sql.utf8ByteSize →
      w.compile e c sql pos = (.ok (some st) used, w0) → w0.step e st = (sqliteRow, w1) →
      e.columnCount w1.state st = k + 1 → StepsFail e st w1 code w' →
      ExecFailure sql pos w code (⟨some st, sql, pos + used, k + 1⟩, w')

variable {e c}

theorem Req.Skips.runsTo {sql : String} {pos pos' pos'' : Nat} {w w' w'' : World σ}
    (h : Req.Skips e c sql pos w pos' w') (hr : RunsTo e c sql pos' w' pos'' w'') :
    RunsTo e c sql pos w pos'' w'' := by
  induction h with
  | refl => exact hr
  | done hlt hc hs _ ih => exact .stmt hlt hc (.done hs) (ih hr)

/-- A failure leaves the text of the `Req` as it was. -/
theorem ExecFailure.sql_eq {sql : String} {pos : Nat} {w : World σ} {code : Code}
    {s : Req × World σ} (h : ExecFailure e c sql pos w code s) : s.1.sql = sql := by
  cases h <;> rfl

/-! ## §2 The loops -/

/-- **A failed run of `exec_select`'s loop**: the statements before the failed one were DONE
    at once, and its compile or its first step failed. -/
theorem execSelectLoop_raise {n : Nat} {r : Req} {w : World σ} {x : Error}
    {s : Req × World σ} (hr : r.cols = 0)
    (h : loop (fun _ => Req.execSelectBody e c) n (r, w) = .raise x s) :
    ∃ pos w1 code, x = .engine code ∧ RunsTo e c r.sql r.pos (w.release e r.stmt) pos w1 ∧
      ExecFailure e c r.sql pos w1 code s ∧ s.1.cols = 0 := by
  obtain ⟨pos, w1, hsk, hstop⟩ := Req.execSelectLoop_cases e c h trivial
  rw [hr] at hstop
  cases hstop with
  | compileError hlt hc => exact ⟨pos, w1, _, rfl, hsk.runsTo .refl, .compile hlt hc, rfl⟩
  | stepError hlt hc hs hrow hdone =>
    exact ⟨pos, w1, _, rfl, hsk.runsTo .refl, .step hlt hc hs hrow hdone, rfl⟩

/-- **A failed run of `exec`'s loop**: the statements before the failed one ran to DONE,
    their rows drained, and the failed one fails as `ExecFailure` says. -/
theorem execLoop_raise (hcols : e.RowsHaveColumns) {n : Nat} {r : Req} {w : World σ}
    {x : Error} {s : Req × World σ} (hr : r.cols = 0)
    (h : loop (Req.execBody e c) n (r, w) = .raise x s) :
    ∃ pos w1 code, x = .engine code ∧ RunsTo e c r.sql r.pos (w.release e r.stmt) pos w1 ∧
      ExecFailure e c r.sql pos w1 code s := by
  induction n generalizing r w with
  | zero => cases h
  | succ n ih =>
    rw [loop_succ] at h
    rcases hx : Req.execSelect e c n r w with ⟨k, r1, w1⟩ | ⟨x', r1, w1⟩ | s'
    · obtain ⟨pos, w2, hsk, hstop⟩ :=
        Req.execSelectLoop_cases e c (execSelect_ret hx).2 trivial
      cases hstop with
      | atEnd => simp [Req.execBody, hx] at h
      | noSql => simp [Req.execBody, hx] at h
      | @row used st w0 _ hlt hc hs =>
        obtain ⟨k, hk⟩ := hcols.cols_succ hs
        simp only [Req.execBody, hx, hk] at h
        cases hd :
            loop (fun _ => Req.drainBody e) n (⟨some st, r.sql, pos + used, k + 1⟩, w1) with
        | spin s => simp [hd] at h
        | ret u s1 =>
          rcases drainLoop_cases hcols rfl (Nat.succ_ne_zero k) hd trivial with
            ⟨rows, w4, hsteps, hret⟩ | ⟨_, _, _, hret⟩ <;> cases hret
          simp only [hd] at h
          obtain ⟨pos', w5, code, rfl, hrun, hfail⟩ := ih rfl h
          exact ⟨pos', w5, code, rfl, hsk.runsTo (.stmt hlt hc (.row hs hsteps) hrun), hfail⟩
        | raise x'' s1 =>
          rcases drainLoop_cases hcols rfl (Nat.succ_ne_zero k) hd trivial with
            ⟨_, _, _, hraise⟩ | ⟨code, w4, hfail, hraise⟩ <;> cases hraise
          simp only [hd, Step.exit.injEq, Outcome.raise.injEq] at h
          obtain ⟨rfl, rfl⟩ := h
          exact ⟨pos, w2, code, rfl, hsk.runsTo .refl, .drain hlt hc hs hk hfail⟩
    · simp only [Req.execBody, hx, Step.exit.injEq, Outcome.raise.injEq] at h
      obtain ⟨rfl, rfl⟩ := h
      obtain ⟨pos, w2, code, hx', hrun, hfail, -⟩ :=
        execSelectLoop_raise hr (execSelect_raise hr hx)
      exact ⟨pos, w2, code, hx', hrun, hfail⟩
    · simp [Req.execBody, hx] at h

/-! ## §3 The public calls -/

/-- **Where a failed call leaves the stream.** Called with no current row, an
    `exec_select()` or `exec()` that raises an error raises the engine's error, after the
    statements before the failed one ran to DONE; `exec_select()` fails only in the failed
    statement's compile or first step, with no row, and `exec()` in any of the three ways
    `ExecFailure` lists: after a failed compile the `Req` holds nothing and stands at the
    failed statement; after a failed first step it holds that statement and stands after it;
    after a failed step past a row it also keeps `m_cols`, so that every later `exec()` and
    `exec_select()` raises the usage error and changes nothing. -/
theorem exec_failure_resume (hcols : e.RowsHaveColumns) {r : Req} (hr : r.cols = 0)
    (w : World σ) :
    (∀ n x s, Req.execSelect e c n r w = .raise x s →
      ∃ pos w1 code, x = .engine code ∧ RunsTo e c r.sql r.pos (w.release e r.stmt) pos w1 ∧
        ExecFailure e c r.sql pos w1 code s ∧ s.1.cols = 0) ∧
    (∀ n x s, Req.exec e c n r w = .raise x s →
      ∃ pos w1 code, x = .engine code ∧ RunsTo e c r.sql r.pos (w.release e r.stmt) pos w1 ∧
        ExecFailure e c r.sql pos w1 code s ∧
        (s.1.cols ≠ 0 → ∀ m (w' : World σ),
          Req.exec e c m s.1 w' = .raise (.usage "exec() called with current row data") (s.1, w') ∧
          Req.execSelect e c m s.1 w' =
            .raise (.usage "exec_select() called with current row data") (s.1, w'))) := by
  refine ⟨fun n x s h => execSelectLoop_raise hr (execSelect_raise hr h), fun n x s h => ?_⟩
  rw [exec_eq_loop hr] at h
  obtain ⟨pos, w1, code, hx, hrun, hfail⟩ := execLoop_raise hcols hr h
  exact ⟨pos, w1, code, hx, hrun, hfail, fun hc m w' => by simp [Req.exec, Req.execSelect, hc]⟩

/-- `SELECT 1;` yields a row, and its next step reports `SQLITE_BUSY`: `exec()` raises the
    engine's error, the `Req` keeps `m_cols`, and the next `exec()` raises the usage error. -/
theorem exec_failure_resume_busy :
    ∃ s, Req.exec tapeEngine ⟨some 0⟩ 2 (Req.new.append "SELECT 1;")
        ⟨⟨[], [], [.ok (some 0) 9], [sqliteRow, sqliteBusy], none⟩, []⟩ =
        .raise (.engine sqliteBusy) s ∧ s.1.cols = 1 ∧
      Req.exec tapeEngine ⟨some 0⟩ 2 s.1 s.2 =
        .raise (.usage "exec() called with current row data") s := by
  obtain ⟨-, -, -, -, -, -, hwedge⟩ := (exec_failure_resume (e := tapeEngine)
    (c := ⟨some 0⟩) (fun _ _ _ => Nat.one_pos) (r := Req.new.append "SELECT 1;") rfl
    ⟨⟨[], [], [.ok (some 0) 9], [sqliteRow, sqliteBusy], none⟩, []⟩).2 2 _ _ rfl
  exact ⟨_, rfl, rfl, (hwedge (by decide) 2 _).1⟩

/-! ## §4 Usage errors -/

@[simp] theorem Outcome.unit_eq_raise {S α : Type} {o : Outcome S α} {x : Error} {s : S} :
    o.unit = .raise x s ↔ o = .raise x s := by
  cases o <;> simp [Outcome.unit]

/-- **A usage error changes nothing.** On an engine whose rows have columns, a call of a
    client raises a usage error only from its own guard, with that guard's message, and
    leaves the `Req` and the world as they were: the loops of `exec_select` and `exec` raise
    only the engine's errors. -/
theorem op_usage (hcols : e.RowsHaveColumns) (n : Nat) (op : Req.Op) {r : Req} {w : World σ}
    {msg : String} {s : Req × World σ} (h : Req.Op.run e c n op r w = .raise (.usage msg) s) :
    s = (r, w) ∧
      (op = .execSelect ∧ r.cols ≠ 0 ∧ msg = "exec_select() called with current row data" ∨
        op = .exec ∧ r.cols ≠ 0 ∧ msg = "exec() called with current row data" ∨
        op = .nextRow ∧ r.stmt = none ∧ msg = "next_row() called with invalid statement" ∨
        op = .nextRow ∧ r.stmt ≠ none ∧ r.cols = 0 ∧
          msg = "next_row() called without current row data") := by
  cases op with
  | append | clear | reset => cases h
  | execSelect =>
    simp only [Req.Op.run, Outcome.unit_eq_raise, Req.execSelect] at h
    split_ifs at h with hc
    · cases h
      exact ⟨rfl, .inl ⟨rfl, hc, rfl⟩⟩
    · obtain ⟨_, _, -, hstop⟩ := Req.execSelectLoop_cases e c h trivial
      cases hstop
  | nextRow =>
    simp only [Req.Op.run, Outcome.unit_eq_raise, Req.nextRow_eq] at h
    rcases hst : r.stmt with _ | st <;> simp only [hst] at h
    · cases h
      exact ⟨rfl, .inr (.inr (.inl ⟨rfl, rfl, rfl⟩))⟩
    · split_ifs at h with h0 <;> cases h
      exact ⟨rfl, .inr (.inr (.inr ⟨rfl, Option.some_ne_none st, h0, rfl⟩))⟩
  | exec =>
    simp only [Req.Op.run, Req.exec] at h
    split_ifs at h with hc
    · cases h
      exact ⟨rfl, .inr (.inl ⟨rfl, hc, rfl⟩)⟩
    · obtain ⟨code, hx, -⟩ := execLoop_sound hcols (not_not.1 hc) h trivial
      cases hx

end Sqld
