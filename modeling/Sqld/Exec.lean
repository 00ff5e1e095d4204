import Sqld.Refinement

/-!
# `Req::exec` Runs Every Statement, or Stops at the First Failure

`exec()` is what `Trans` uses to issue `BEGIN`, `COMMIT` and `ROLLBACK`, and what a caller
uses for scripts whose rows it does not read: the spec asks that "incidental SELECTs ... be
fully consumed to let subsequent statements compile". This module shows that a finished
`exec` is a run of the reference `Runs`, or a run that fails at some statement, and that
every such run is reached with enough fuel.

## Main definitions
- `StepsFail`, `Fails`: runs of the reference that end in an engine failure.
- `Engine.NoSqlConsumesRest`: a compile that finds no statement consumes the rest.

## Main results
- `drainLoop_cases`: the spec of `while (next_row()) {}`.
- `execLoop_sound`, `execLoop_complete_runs`, `execLoop_complete_fails`.
- `exec_runs_or_fails`: the characterisation of `Req::exec`; `exec_stops_at_nul`: at a NUL
  byte sqlite finds no SQL and consumes nothing, and `exec()` returns short of the end.
-/

namespace Sqld

variable {σ : Type} (e : Engine σ) (c : Conn)

/-! ## §1 Failing runs of the reference -/

/-- `StepsFail e st w code w'`: stepping `st` from `w` yields rows, then fails with `code`. -/
inductive StepsFail (st : Stmt) : World σ → Code → World σ → Prop
  | fail {w w' : World σ} {code : Code} : w.step e st = (code, w') → code ≠ sqliteRow →
      code ≠ sqliteDone → StepsFail st w code w'
  | row {w w1 w' : World σ} {code : Code} : w.step e st = (sqliteRow, w1) →
      StepsFail st w1 code w' → StepsFail st w code w'

/-- `Fails e c sql pos w code w'`: the statements of `sql` from byte `pos`, run one after
    another, run to DONE up to some statement, whose compile or one of whose steps then
    fails with `code`; nothing after it is compiled or stepped. -/
inductive Fails (sql : String) : Nat → World σ → Code → World σ → Prop
  | compile {pos : Nat} {code : Code} {w w' : World σ} : pos < sql.utf8ByteSize →
      w.compile e c sql pos = (.error code, w') → Fails sql pos w code w'
  | step {pos used : Nat} {st : Stmt} {code : Code} {w w0 w' : World σ} :
      pos < sql.utf8ByteSize → w.compile e c sql pos = (.ok (some st) used, w0) →
      StepsFail e st w0 code w' → Fails sql pos w code w'
  | next {pos used : Nat} {st : Stmt} {code : Code} {w w0 w1 w' : World σ} {rows} :
      pos < sql.utf8ByteSize → w.compile e c sql pos = (.ok (some st) used, w0) →
      Steps e st w0 rows w1 → Fails sql (pos + used) (w1.finalize e st) code w' →
      Fails sql pos w code w'

/-- A compile that finds no statement has consumed the rest of the text: sqlite sets
    `*ppStmt` to NULL when "the input text contains no SQL". -/
def Engine.NoSqlConsumesRest (e : Engine σ) : Prop :=
  ∀ s db sql pos n used, (e.prepare s db sql pos n).2 = .ok none used →
    sql.utf8ByteSize ≤ pos + used

variable {e c}

theorem Req.Skips.fails {sql : String} {pos pos' : Nat} {w w' w'' : World σ} {code : Code}
    (h : Req.Skips e c sql pos w pos' w') (hf : Fails e c sql pos' w' code w'') :
    Fails e c sql pos w code w'' := by
  induction h with
  | refl => exact hf
  | done hlt hc hs _ ih => exact .next hlt hc (.done hs) (ih hf)

theorem Engine.NoSqlConsumesRest.le (h : e.NoSqlConsumesRest) {w w' : World σ} {sql : String}
    {pos used : Nat} (hc : w.compile e c sql pos = (.ok none used, w')) :
    sql.utf8ByteSize ≤ pos + used :=
  h _ _ _ _ _ _ (congrArg Prod.fst hc)

/-! ## §2 The drain loop -/

/-- **The spec of `while (next_row()) {}`.** On a statement holding a row, the loop reads
    the rest of the rows and stops at DONE with no current row, or raises at the failing
    step, keeping the row count. -/
theorem drainLoop_cases (hcols : e.RowsHaveColumns) {n : Nat} {r : Req} {st : Stmt}
    {w : World σ} {o} (hst : r.stmt = some st) (hc : r.cols ≠ 0)
    (h : loop (fun _ => Req.drainBody e) n (r, w) = o) (hfin : o.Finished) :
    (∃ rows w', Steps e st w rows w' ∧ o = .ret () ({ r with cols := 0 }, w')) ∨
    (∃ code w', StepsFail e st w code w' ∧ o = .raise (.engine code) (r, w')) := by
  induction n generalizing w with
  | zero => subst h; exact absurd hfin id
  | succ n ih =>
    rw [loop_succ] at h
    simp only [Req.drainBody, Req.nextRow_eq, hst, hc, if_false] at h
    rcases hs : w.step e st with ⟨code, w2⟩
    simp only [hs] at h
    by_cases hd : code = sqliteDone
    · subst hd
      simp only [if_true] at h
      exact .inl ⟨[], w2, .done hs, by rw [← h]; simp [hst]⟩
    by_cases hr : code = sqliteRow
    · subst hr
      obtain ⟨k, hk⟩ := hcols.cols_succ hs
      simp only [hd, if_false, ne_eq, not_true_eq_false, hk] at h
      rcases ih h with ⟨rows, w', hsteps, ho⟩ | ⟨code, w', hfail, ho⟩
      · exact .inl ⟨_, w', .row hs hsteps, ho⟩
      · exact .inr ⟨code, w', .row hs hfail, ho⟩
    · simp only [hd, hr, if_false, ne_eq, not_false_eq_true, if_true] at h
      exact .inr ⟨code, w2, .fail hs hr hd, h.symm⟩

/-! ## §3 Soundness -/

variable (e c) in
/-- What a finished run of `exec` from `(r, w)` is: a run of the reference to its end that
    leaves no statement, no row, and the stream used up when the engine consumes trailing
    text; or a run of the reference that fails, raised as an engine error. -/
def ExecEnd (r : Req) (w : World σ) : Outcome (Req × World σ) Unit → Prop
  | .ret () (r', w') => (∃ rows, Runs e c r.sql r.pos (w.release e r.stmt) rows w') ∧
      r'.stmt = none ∧ r'.cols = 0 ∧ r'.sql = r.sql ∧ (e.NoSqlConsumesRest → r'.size ≤ r'.pos)
  | .raise x (_, w') =>
    ∃ code, x = .engine code ∧ Fails e c r.sql r.pos (w.release e r.stmt) code w'
  | .spin _ => False

theorem execSelect_raise {n : Nat} {r : Req} {w : World σ} {x : Error} {s : Req × World σ}
    (hr : r.cols = 0) (h : Req.execSelect e c n r w = .raise x s) :
    loop (fun _ => Req.execSelectBody e c) n (r, w) = .raise x s := by
  simpa [Req.execSelect, hr] using h

/-- Every finished run of `exec`'s loop from a `Req` with no current row is an `ExecEnd`. -/
theorem execLoop_sound (hcols : e.RowsHaveColumns) {n : Nat} {r : Req} {w : World σ} {o}
    (hr : r.cols = 0) (h : loop (Req.execBody e c) n (r, w) = o) (hfin : o.Finished) :
    ExecEnd e c r w o := by
  induction n generalizing r w with
  | zero => subst h; exact absurd hfin id
  | succ n ih =>
    rw [loop_succ] at h
    rcases hx : Req.execSelect e c n r w with ⟨k, r1, w1⟩ | ⟨x, r1, w1⟩ | s
    · obtain ⟨pos, w2, hsk, hstop⟩ := Req.execSelectLoop_cases e c (execSelect_ret hx).2 trivial
      cases hstop with
      | atEnd hend =>
        simp only [Req.execBody, hx] at h
        subst h
        exact ⟨⟨[], hsk.runs (.atEnd hend)⟩, rfl, hr, rfl, fun _ => hend⟩
      | noSql hlt hc =>
        simp only [Req.execBody, hx] at h
        subst h
        exact ⟨⟨[], hsk.runs (.noSql hlt hc)⟩, rfl, hr, rfl, fun hrest => hrest.le hc⟩
      | @row used st w0 _ hlt hc hs =>
        obtain ⟨k, hk⟩ := hcols.cols_succ hs
        simp only [Req.execBody, hx, hk] at h
        cases hd : loop (fun _ => Req.drainBody e) n (⟨some st, r.sql, pos + used, k + 1⟩, w1) with
        | spin s => rw [hd] at h; subst h; exact absurd hfin id
        | ret u s =>
          rcases drainLoop_cases hcols rfl (Nat.succ_ne_zero k) hd trivial with
            ⟨rows, w4, hsteps, hret⟩ | ⟨_, _, _, hret⟩ <;> cases hret
          rw [hd] at h
          have hend := ih rfl h
          rcases o with ⟨⟨⟩, r', w'⟩ | ⟨x, r', w'⟩ | s
          · obtain ⟨⟨rows', hruns⟩, hpost⟩ := hend
            exact ⟨⟨_, hsk.runs (Runs.stmt hlt hc (.row hs hsteps) hruns)⟩,
              by simpa [hk] using hpost⟩
          · obtain ⟨code, rfl, hf⟩ := hend
            exact ⟨code, rfl, hsk.fails (.next hlt hc (.row hs hsteps) hf)⟩
          · exact absurd hfin id
        | raise x s =>
          rcases drainLoop_cases hcols rfl (Nat.succ_ne_zero k) hd trivial with
            ⟨_, _, _, hraise⟩ | ⟨code, w4, hfail, hraise⟩ <;> cases hraise
          rw [hd] at h
          subst h
          exact ⟨code, rfl, hsk.fails (.step hlt hc (.row hs hfail))⟩
    · have hl := execSelect_raise hr hx
      simp only [Req.execBody, hx] at h
      subst h
      obtain ⟨pos, w2, hsk, hstop⟩ := Req.execSelectLoop_cases e c hl trivial
      cases hstop with
      | compileError hlt hc => exact ⟨_, rfl, hsk.fails (.compile hlt hc)⟩
      | stepError hlt hc hs hrow hdone =>
        exact ⟨_, rfl, hsk.fails (.step hlt hc (.fail hs hrow hdone))⟩
    · simp only [Req.execBody, hx] at h
      subst h
      exact absurd hfin id

/-! ## §4 Completeness -/

theorem drainLoop_complete (hcols : e.RowsHaveColumns) {st : Stmt} {w w' : World σ} {rows}
    (hs : Steps e st w rows w') {r : Req} (hst : r.stmt = some st) (hc : r.cols ≠ 0) :
    ∃ n, loop (fun _ => Req.drainBody e) n (r, w) = .ret () ({ r with cols := 0 }, w') := by
  induction hs with
  | done hstep => exact ⟨1, by simp [loop_succ, Req.drainBody, Req.nextRow_eq, hst, hc, hstep]⟩
  | row hstep _ ih =>
    obtain ⟨k, hk⟩ := hcols.cols_succ hstep
    obtain ⟨n, hn⟩ := ih
    exact ⟨n + 1, by simpa [loop_succ, Req.drainBody, Req.nextRow_eq, hst, hc, hstep, hk] using hn⟩

theorem drainLoop_complete_fail (hcols : e.RowsHaveColumns) {st : Stmt} {w w' : World σ}
    {code : Code} (hs : StepsFail e st w code w') {r : Req} (hst : r.stmt = some st)
    (hc : r.cols ≠ 0) :
    ∃ n, loop (fun _ => Req.drainBody e) n (r, w) = .raise (.engine code) (r, w') := by
  induction hs with
  | fail hstep hr hd =>
    exact ⟨1, by simp [loop_succ, Req.drainBody, Req.nextRow_eq, hst, hc, hstep, hr, hd]⟩
  | row hstep _ ih =>
    obtain ⟨k, hk⟩ := hcols.cols_succ hstep
    obtain ⟨n, hn⟩ := ih
    exact ⟨n + 1, by simpa [loop_succ, Req.drainBody, Req.nextRow_eq, hst, hc, hstep, hk] using hn⟩

theorem execBody_finished_select {n : Nat} {r : Req} {w : World σ}
    (h : (Req.execBody e c n (r, w)).Finished) : (Req.execSelect e c n r w).Finished := by
  cases hx : Req.execSelect e c n r w with
  | spin s => simp [Req.execBody, hx] at h
  | _ => trivial

/-- A statement that is DONE at its first step is passed over inside `exec_select`, as if
    `exec` had gone round its loop once more. -/
theorem execLoop_skip {r r1 : Req} {w w1 : World σ}
    (hb : Req.execSelectBody e c (r, w) = .next (r1, w1)) (hr : r.cols = 0) (hr1 : r1.cols = 0)
    {n : Nat} (hfin : (loop (Req.execBody e c) n (r1, w1)).Finished) :
    loop (Req.execBody e c) (n + 1) (r, w) = loop (Req.execBody e c) n (r1, w1) := by
  rcases n with _ | m
  · exact absurd hfin id
  have hx : Req.execSelect e c (m + 1) r w = Req.execSelect e c m r1 w1 := by
    simp only [Req.execSelect, hr, hr1, ne_eq, not_true_eq_false, if_false, loop_succ, hb]
  rw [loop_succ] at hfin ⊢
  rw [loop_succ]
  cases hb1 : Req.execBody e c m (r1, w1) with
  | next s =>
    rw [hb1] at hfin
    have hsel := execBody_finished_select (by rw [hb1]; trivial)
    have hbody : Req.execBody e c (m + 1) (r, w) = Req.execBody e c (m + 1) (r1, w1) := by
      simp only [Req.execBody, hx, Req.execSelect_succ e c hsel]
    rw [hbody, Req.execBody_finished e c (by rw [hb1]; trivial), hb1]
    exact Req.execLoop_fuelMono e c m s hfin
  | exit o =>
    rw [hb1] at hfin
    have hsel := execBody_finished_select (by rw [hb1]; exact hfin)
    have hbody : Req.execBody e c (m + 1) (r, w) = Req.execBody e c (m + 1) (r1, w1) := by
      simp only [Req.execBody, hx, Req.execSelect_succ e c hsel]
    rw [hbody, Req.execBody_finished e c (by rw [hb1]; exact hfin), hb1]

/-- One pass of `exec`'s loop at a statement that yields rows: `exec_select` stops at its
    first row and the drain loop reads the rest. With fuel for both, the loop goes on from
    where the drain left it. -/
theorem execLoop_pass {n1 n2 n3 k : Nat} {s s1 s2 : Req × World σ}
    (hx : Req.execSelect e c n1 s.1 s.2 = .ret (k + 1) s1)
    (hd : loop (fun _ => Req.drainBody e) n2 s1 = .ret () s2)
    (h3 : (loop (Req.execBody e c) n3 s2).Finished) :
    loop (Req.execBody e c) (n1 + n2 + n3 + 1) s = loop (Req.execBody e c) n3 s2 := by
  have hx' :=
    (Req.execSelect_mono e c (by omega : n1 ≤ n1 + n2 + n3) (by rw [hx]; trivial)).trans hx
  have hd' := ((loop_const_fuelMono (Req.drainBody e)).le (by omega : n2 ≤ n1 + n2 + n3)
    (by rw [hd]; trivial)).trans hd
  rw [loop_succ]
  simp only [Req.execBody, hx', hd']
  exact (Req.execLoop_fuelMono e c).le (by omega) h3

/-- One pass of `exec`'s loop whose drain loop raises: the loop raises with it. -/
theorem execLoop_pass_raise {n1 n2 k : Nat} {x : Error} {s s1 s2 : Req × World σ}
    (hx : Req.execSelect e c n1 s.1 s.2 = .ret (k + 1) s1)
    (hd : loop (fun _ => Req.drainBody e) n2 s1 = .raise x s2) :
    loop (Req.execBody e c) (n1 + n2 + 1) s = .raise x s2 := by
  have hx' := (Req.execSelect_mono e c (Nat.le_add_right n1 n2) (by rw [hx]; trivial)).trans hx
  have hd' := ((loop_const_fuelMono (Req.drainBody e)).le (Nat.le_add_left n2 n1)
    (by rw [hd]; trivial)).trans hd
  rw [loop_succ]
  simp [Req.execBody, hx', hd']

/-- `exec` on a statement whose first step yields a row: `exec_select` stops at it, the
    drain loop reads the rest of its rows, and `exec` goes on from the statement after it
    as a fresh call would. -/
theorem execLoop_row (hcols : e.RowsHaveColumns) {r : Req} {w w0 w1 w3 : World σ} {st : Stmt}
    {used n : Nat} {rows} {o} (hr : r.cols = 0) (hlt : r.pos < r.sql.utf8ByteSize)
    (hc : (w.release e r.stmt).compile e c r.sql r.pos = (.ok (some st) used, w0))
    (hs : w0.step e st = (sqliteRow, w1)) (hsteps : Steps e st w1 rows w3)
    (hn : loop (Req.execBody e c) n (⟨some st, r.sql, r.pos + used, 0⟩, w3) = o)
    (hfin : o.Finished) : ∃ m, loop (Req.execBody e c) m (r, w) = o := by
  obtain ⟨k, hk⟩ := hcols.cols_succ hs
  have hb : Req.execSelectBody e c (r, w) =
      .exit (.ret (k + 1) (⟨some st, r.sql, r.pos + used, k + 1⟩, w1)) := by
    rw [Req.execSelectBody_of_lt e c hlt, hc]
    simp [hs, hk]
  obtain ⟨nd, hd⟩ := drainLoop_complete hcols hsteps
    (r := ⟨some st, r.sql, r.pos + used, k + 1⟩) rfl (Nat.succ_ne_zero k)
  exact ⟨_, (execLoop_pass (execSelect_one hr hb) hd (by rw [hn]; exact hfin)).trans hn⟩

/-- `exec` on a statement whose first step yields a row and a later step fails. -/
theorem execLoop_row_fail (hcols : e.RowsHaveColumns) {r : Req} {w w0 w1 w3 : World σ}
    {st : Stmt} {used : Nat} {code : Code} (hr : r.cols = 0) (hlt : r.pos < r.sql.utf8ByteSize)
    (hc : (w.release e r.stmt).compile e c r.sql r.pos = (.ok (some st) used, w0))
    (hs : w0.step e st = (sqliteRow, w1)) (hfail : StepsFail e st w1 code w3) :
    ∃ m s, loop (Req.execBody e c) m (r, w) = .raise (.engine code) s ∧ s.2 = w3 := by
  obtain ⟨k, hk⟩ := hcols.cols_succ hs
  have hb : Req.execSelectBody e c (r, w) =
      .exit (.ret (k + 1) (⟨some st, r.sql, r.pos + used, k + 1⟩, w1)) := by
    rw [Req.execSelectBody_of_lt e c hlt, hc]
    simp [hs, hk]
  obtain ⟨nd, hd⟩ := drainLoop_complete_fail hcols hfail
    (r := ⟨some st, r.sql, r.pos + used, k + 1⟩) rfl (Nat.succ_ne_zero k)
  exact ⟨_, _, execLoop_pass_raise (execSelect_one hr hb) hd, rfl⟩

/-- Every run of the reference to its end is reached by `exec`'s loop with enough fuel. -/
theorem execLoop_complete_runs (hcols : e.RowsHaveColumns) {sql : String} {pos : Nat}
    {w0 w' : World σ} {rows} (h : Runs e c sql pos w0 rows w') :
    ∀ (r : Req) (w : World σ), r.sql = sql → r.pos = pos → r.cols = 0 →
      w.release e r.stmt = w0 → ∃ n r', loop (Req.execBody e c) n (r, w) = .ret () (r', w') := by
  induction h with
  | atEnd hend =>
    intro r w hsql hpos hr hw
    subst hsql hpos hw
    have hb := Req.execSelectBody_of_le e c (w := w) hend
    exact ⟨2, { r with stmt := none }, by simp [loop_succ, Req.execBody, execSelect_one hr hb]⟩
  | @noSql _ used _ _ hlt hc =>
    intro r w hsql hpos hr hw
    subst hsql hpos hw
    have hb := Req.execSelectBody_of_lt e c (w := w) hlt
    rw [hc] at hb
    exact ⟨2, { r with stmt := none, pos := r.pos + used },
      by simp [loop_succ, Req.execBody, execSelect_one hr hb]⟩
  | @stmt pos used st w w0 w1 w' rows rest hlt hc hsteps _ ih =>
    intro r w hsql hpos hr hw
    subst hsql hpos hw
    cases hsteps with
    | done hstep =>
      have hb := Req.execSelectBody_of_lt e c (w := w) hlt
      rw [hc] at hb
      simp only [hstep, if_true] at hb
      obtain ⟨n, r', hn⟩ := ih { r with stmt := some st, pos := r.pos + used } w1 rfl rfl hr rfl
      exact ⟨n + 1, r', (execLoop_skip hb hr hr (by rw [hn]; trivial)).trans hn⟩
    | row hstep hsteps' =>
      obtain ⟨n, r', hn⟩ := ih ⟨some st, r.sql, r.pos + used, 0⟩ _ rfl rfl rfl rfl
      obtain ⟨m, hm⟩ := execLoop_row hcols hr hlt hc hstep hsteps' hn trivial
      exact ⟨m, r', hm⟩

/-- Every failing run of the reference is reached by `exec`'s loop with enough fuel, and
    raised as the engine's error. -/
theorem execLoop_complete_fails (hcols : e.RowsHaveColumns) {sql : String} {pos : Nat}
    {w0 w' : World σ} {code : Code} (h : Fails e c sql pos w0 code w') :
    ∀ (r : Req) (w : World σ), r.sql = sql → r.pos = pos → r.cols = 0 →
      w.release e r.stmt = w0 →
      ∃ n s, loop (Req.execBody e c) n (r, w) = .raise (.engine code) s ∧ s.2 = w' := by
  induction h with
  | @compile pos code w w' hlt hc =>
    intro r w hsql hpos hr hw
    subst hsql hpos hw
    have hb := Req.execSelectBody_of_lt e c (w := w) hlt
    rw [hc] at hb
    exact ⟨2, ({ r with stmt := none }, w'),
      by simp [loop_succ, Req.execBody, execSelect_one hr hb], rfl⟩
  | @step pos used st code w w0 w' hlt hc hfail =>
    intro r w hsql hpos hr hw
    subst hsql hpos hw
    cases hfail with
    | fail hstep hrow hdone =>
      have hb := Req.execSelectBody_of_lt e c (w := w) hlt
      rw [hc] at hb
      simp only [hstep, hrow, hdone, if_false, ne_eq, not_false_eq_true, if_true] at hb
      exact ⟨2, ({ r with stmt := some st, pos := r.pos + used }, w'),
        by simp [loop_succ, Req.execBody, execSelect_one hr hb], rfl⟩
    | row hstep hfail' => exact execLoop_row_fail hcols hr hlt hc hstep hfail'
  | @next pos used st code w w0 w1 w' rows hlt hc hsteps _ ih =>
    intro r w hsql hpos hr hw
    subst hsql hpos hw
    cases hsteps with
    | done hstep =>
      have hb := Req.execSelectBody_of_lt e c (w := w) hlt
      rw [hc] at hb
      simp only [hstep, if_true] at hb
      obtain ⟨n, s, hn, hw'⟩ := ih { r with stmt := some st, pos := r.pos + used } w1 rfl rfl hr rfl
      exact ⟨n + 1, s, (execLoop_skip hb hr hr (by rw [hn]; trivial)).trans hn, hw'⟩
    | row hstep hsteps' =>
      obtain ⟨n, s, hn, hw'⟩ := ih ⟨some st, r.sql, r.pos + used, 0⟩ _ rfl rfl rfl rfl
      obtain ⟨m, hm⟩ := execLoop_row hcols hr hlt hc hstep hsteps' hn trivial
      exact ⟨m, s, hm, hw'⟩

/-! ## §5 `exec` -/

/-- A `Req` whose stream is used up, with no statement and no row, sends nothing to the
    engine: `exec_select` returns 0 at once and leaves the world as it was. -/
theorem execSelect_idle {r : Req} (hst : r.stmt = none) (hr : r.cols = 0) (hend : r.size ≤ r.pos)
    (m : Nat) (w : World σ) : Req.execSelect e c (m + 1) r w = .ret 0 (r, w) := by
  obtain ⟨st, sql, pos, cols⟩ := r
  subst hst hr
  simp [Req.execSelect, loop_succ, Req.execSelectBody_of_le e c (r := ⟨none, sql, pos, 0⟩) hend]

theorem exec_idle {r : Req} (hst : r.stmt = none) (hr : r.cols = 0) (hend : r.size ≤ r.pos)
    (m : Nat) (w : World σ) : Req.exec e c (m + 2) r w = .ret () (r, w) := by
  simp [Req.exec, hr, loop_succ, Req.execBody, execSelect_idle hst hr hend]

theorem exec_eq_loop {r : Req} (hr : r.cols = 0) (n : Nat) (w : World σ) :
    Req.exec e c n r w = loop (Req.execBody e c) n (r, w) := by
  simp [Req.exec, hr]

/-- **`Req::exec` runs the rest of the stream.** Called with no current row, a finished
    `exec` either ran every remaining statement to DONE, in order and each once, and left
    no statement and no row; on an engine that consumes the rest of the text when it finds
    no SQL there, it also left the stream used up, so that further calls send nothing to the
    engine. Or it raised the engine's error of the first statement that failed, with nothing
    after it compiled or stepped. Each such run of the reference is reached. -/
theorem exec_runs_or_fails (hcols : e.RowsHaveColumns) {r : Req} (hr : r.cols = 0)
    (w : World σ) :
    (∀ n r' w', Req.exec e c n r w = .ret () (r', w') →
      (∃ rows, Runs e c r.sql r.pos (w.release e r.stmt) rows w') ∧
      r'.stmt = none ∧ r'.cols = 0 ∧ r'.sql = r.sql ∧
      (e.NoSqlConsumesRest → r'.size ≤ r'.pos ∧
        ∀ m w'', Req.execSelect e c (m + 1) r' w'' = .ret 0 (r', w'') ∧
          Req.exec e c (m + 2) r' w'' = .ret () (r', w''))) ∧
    (∀ n x s, Req.exec e c n r w = .raise x s →
      ∃ code, x = .engine code ∧ Fails e c r.sql r.pos (w.release e r.stmt) code s.2) ∧
    (∀ rows w', Runs e c r.sql r.pos (w.release e r.stmt) rows w' →
      ∃ n r', Req.exec e c n r w = .ret () (r', w')) ∧
    (∀ code w', Fails e c r.sql r.pos (w.release e r.stmt) code w' →
      ∃ n s, Req.exec e c n r w = .raise (.engine code) s ∧ s.2 = w') := by
  simp only [exec_eq_loop hr]
  refine ⟨fun n r' w' h => ?_, fun n x s h => ?_, fun rows w' h => ?_, fun code w' h => ?_⟩
  · obtain ⟨hruns, hst, hcols', hsql, hend⟩ := execLoop_sound hcols hr h trivial
    exact ⟨hruns, hst, hcols', hsql, fun hrest => ⟨hend hrest, fun m w'' =>
      ⟨execSelect_idle hst hcols' (hend hrest) m w'', exec_idle hst hcols' (hend hrest) m w''⟩⟩⟩
  · obtain ⟨r', w'⟩ := s
    exact execLoop_sound hcols hr h trivial
  · exact execLoop_complete_runs hcols h r w rfl rfl hr rfl
  · exact execLoop_complete_fails hcols h r w rfl rfl hr rfl

theorem oneRowEngine_noSqlConsumesRest : oneRowEngine.NoSqlConsumesRest := by
  intro _ _ _ _ _ _ h
  simp [oneRowEngine] at h

theorem exec_runs_or_fails_oneRow :
    oneRowEngine.RowsHaveColumns ∧ (Req.new.append "SELECT 1;").cols = 0 ∧
    (∀ rows w', Runs oneRowEngine ⟨some 0⟩ "SELECT 1;" 0 ⟨[], []⟩ rows w' →
      ∃ n r', Req.exec oneRowEngine ⟨some 0⟩ n (Req.new.append "SELECT 1;") ⟨[], []⟩ =
        .ret () (r', w')) :=
  ⟨oneRowEngine_rowsHaveColumns, rfl,
    (exec_runs_or_fails (c := ⟨some 0⟩) oneRowEngine_rowsHaveColumns
      (r := Req.new.append "SELECT 1;") rfl ⟨[], []⟩).2.2.1⟩

/-- sqlite reads a statement's text up to the first NUL byte. After
    `req.sql() << "SELECT 1;" << std::ends` the text is `SELECT 1;` and a NUL, 10 bytes, and
    its second compile, from byte 9, finds no SQL and consumes nothing. `exec()` returns
    with no statement and no row but `m_pos = 9`, short of the end, and a further
    `exec_select()` compiles from byte 9 again. -/
theorem exec_stops_at_nul :
    ∃ r' w', Req.exec tapeEngine ⟨some 0⟩ 3 (Req.new.append "SELECT 1;\x00")
        ⟨⟨[], [], [.ok (some 0) 9, .ok none 0, .ok none 0], [sqliteRow, sqliteDone], none⟩,
          []⟩ = .ret () (r', w') ∧
      r'.stmt = none ∧ r'.cols = 0 ∧ r'.pos = 9 ∧ r'.size = 10 ∧
      (Req.execSelect tapeEngine ⟨some 0⟩ 1 r' w').state.2.log =
        w'.log ++ [.prepare (some 0) 9 11 (.ok none 0)] :=
  ⟨⟨none, "SELECT 1;\x00", 9, 0⟩, ⟨⟨[], [], [.ok none 0], [], none⟩,
      [.prepare (some 0) 0 11 (.ok (some 0) 9), .step 0 sqliteRow, .step 0 sqliteDone,
        .finalize 0, .prepare (some 0) 9 11 (.ok none 0)]⟩, rfl, rfl, rfl, rfl, by decide, rfl⟩

end Sqld
