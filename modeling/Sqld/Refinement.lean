import Sqld.Req

/-!
# The Statement Stream Refines Sequential Execution

`Req` runs a buffer of several statements through `exec_select` and `next_row`. Its purpose
(spec §4.2): a script may mix statements that produce rows with statements that do not,
and the stream skips the latter "statement by statement, preserving execution order".

The abstract model is `Runs`: the statements the engine splits the buffer into, run one
after another, each compiled once, stepped until DONE and finalized before the next is
compiled. The caller of the documented protocol (`protocol`, from the comments of
`sqld.h`) is shown to observe exactly the rows of `Runs`, with the same final engine
state and hence the same engine-call log.

## Main definitions
- `Engine.NoFail`, `Engine.RowsHaveColumns`: what the engine is assumed to do.
- `Steps`, `Runs`: the sequential reference executor.
- `protocolBody`, `protocol`: the caller's loop.

## Main results
- `protocol_sound`: every finished run of the caller is a run of `Runs`.
- `protocol_complete`: every run of `Runs` is reached by the caller with enough fuel.
- `protocol_refines_runs`: both, and the caller never raises when the engine never fails.
-/

namespace Sqld

variable {σ : Type}

/-! ## §1 Engines -/

/-- No compile fails and every step answers ROW or DONE. -/
def Engine.NoFail (e : Engine σ) : Prop :=
  (∀ s db sql pos n code, (e.prepare s db sql pos n).2 ≠ .error code) ∧
  (∀ s st, (e.step s st).2 = sqliteRow ∨ (e.step s st).2 = sqliteDone)

/-- sqlite's contract for `sqlite3_column_count`: a statement that returns no data has no
    columns, so a step that yields a row yields it from a statement with columns. -/
def Engine.RowsHaveColumns (e : Engine σ) : Prop :=
  ∀ s st, (e.step s st).2 = sqliteRow → 0 < e.columnCount (e.step s st).1 st

/-- An engine that never fails: every compile takes the rest of the buffer as one
    statement, named by the byte it starts at, and every statement yields one row of one
    column, then DONE. The state is the statements that have yielded their row. -/
def oneRowEngine : Engine (List Stmt) where
  openDb s _ := (s, sqliteOk, some 0)
  closeDb s _ := (s, sqliteOk)
  prepare s _ sql pos _ := (s, .ok (some pos) (sql.utf8ByteSize - pos))
  step s st := if st ∈ s then (s, sqliteDone) else (st :: s, sqliteRow)
  finalize s _ := s
  columnCount _ _ := 1
  columnName _ _ _ := "a"
  columnText _ _ _ := some ""
  columnInt _ _ _ := 0
  columnInt64 _ _ _ := 0
  columnDouble _ _ _ := 0
  columnBytes _ _ _ := 0
  columnBlob _ _ _ := []

theorem oneRowEngine_noFail : oneRowEngine.NoFail := by
  refine ⟨fun _ _ _ _ _ _ => by simp [oneRowEngine], fun s st => ?_⟩
  by_cases h : st ∈ s <;> simp [oneRowEngine, h]

theorem oneRowEngine_rowsHaveColumns : oneRowEngine.RowsHaveColumns :=
  fun _ _ _ => Nat.one_pos

/-! ## §2 The reference executor -/

/-- A row as the caller sees it: the column count reported with it, the statement it is
    read from and the engine state, which fixes what every column accessor returns. -/
structure RowView (σ : Type) where
  cols : Nat
  stmt : Option Stmt
  state : σ

variable (e : Engine σ) (c : Conn)

/-- `Steps e st w rows w'`: stepping `st` from `w` yields `rows`, then DONE in `w'`. -/
inductive Steps (st : Stmt) : World σ → List (RowView σ) → World σ → Prop
  | done {w w' : World σ} : w.step e st = (sqliteDone, w') → Steps st w [] w'
  | row {w w1 w' : World σ} {rows} : w.step e st = (sqliteRow, w1) → Steps st w1 rows w' →
      Steps st w (⟨e.columnCount w1.state st, some st, w1.state⟩ :: rows) w'

/-- `Runs e c sql pos w rows w'`: the statements of `sql` from byte `pos` run one after
    another, each compiled once, stepped until DONE and finalized, yield `rows`. -/
inductive Runs (sql : String) : Nat → World σ → List (RowView σ) → World σ → Prop
  /-- Nothing is left to compile. -/
  | atEnd {pos : Nat} {w : World σ} : sql.utf8ByteSize ≤ pos → Runs sql pos w [] w
  /-- The rest of the buffer holds no SQL. -/
  | noSql {pos used : Nat} {w w' : World σ} : pos < sql.utf8ByteSize →
      w.compile e c sql pos = (.ok none used, w') → Runs sql pos w [] w'
  /-- The next statement, run to DONE and finalized, then the rest. -/
  | stmt {pos used : Nat} {st : Stmt} {w w0 w1 w' : World σ} {rows rest} :
      pos < sql.utf8ByteSize → w.compile e c sql pos = (.ok (some st) used, w0) →
      Steps e st w0 rows w1 → Runs sql (pos + used) (w1.finalize e st) rest w' →
      Runs sql pos w (rows ++ rest) w'

/-! ## §3 The caller -/

/-- Where the caller stands: about to call `exec_select()`, or holding a row and about to
    call `next_row()`. -/
inductive Phase where
  | select
  | rows
  deriving DecidableEq, Repr

/-- The caller's state: its phase, the `Req`, the engine, and the rows read so far. -/
structure Caller (σ : Type) where
  phase : Phase
  req : Req
  world : World σ
  rows : List (RowView σ)

/-- One call of the documented protocol: "If row data is returned, the caller must call
    next_row() until all rows are retrieved", and "exec_select() may need to be called
    again after next_row() returns 0" (`sqld.h`). A row is read where it is reported. -/
def protocolBody (fuel : Nat) : Caller σ → Step (Caller σ) (List (RowView σ))
  | ⟨.select, r, w, acc⟩ =>
    match Req.execSelect e c fuel r w with
    | .ret 0 (r, w) => .exit (.ret acc ⟨.select, r, w, acc⟩)
    | .ret k (r, w) => .next ⟨.rows, r, w, acc ++ [⟨k, r.stmt, w.state⟩]⟩
    | .raise x (r, w) => .exit (.raise x ⟨.select, r, w, acc⟩)
    | .spin (r, w) => .exit (.spin ⟨.select, r, w, acc⟩)
  | ⟨.rows, r, w, acc⟩ =>
    match Req.nextRow e r w with
    | .ret 0 (r, w) => .next ⟨.select, r, w, acc⟩
    | .ret k (r, w) => .next ⟨.rows, r, w, acc ++ [⟨k, r.stmt, w.state⟩]⟩
    | .raise x (r, w) => .exit (.raise x ⟨.rows, r, w, acc⟩)
    | .spin (r, w) => .exit (.spin ⟨.rows, r, w, acc⟩)

/-- The caller from a `Req` with no current row, until `exec_select()` returns 0. -/
def protocol (fuel : Nat) (r : Req) (w : World σ) : Outcome (Caller σ) (List (RowView σ)) :=
  loop (protocolBody e c) fuel ⟨.select, r, w, []⟩

/-! ## §4 Engine facts through the log -/

variable {e c}

theorem Engine.RowsHaveColumns.cols_pos (h : e.RowsHaveColumns) {w w' : World σ} {st : Stmt}
    (hs : w.step e st = (sqliteRow, w')) : 0 < e.columnCount w'.state st := by
  have h1 : (e.step w.state st).2 = sqliteRow := congrArg Prod.fst hs
  rw [← congrArg (fun p => p.2.state) hs]
  exact h _ _ h1

theorem Engine.RowsHaveColumns.cols_succ (h : e.RowsHaveColumns) {w w' : World σ} {st : Stmt}
    (hs : w.step e st = (sqliteRow, w')) : ∃ k, e.columnCount w'.state st = k + 1 :=
  Nat.exists_eq_add_one_of_ne_zero (Nat.pos_iff_ne_zero.1 (h.cols_pos hs))

theorem Engine.NoFail.compile_ne (h : e.NoFail) (w : World σ) (sql : String) (pos : Nat)
    (code : Code) (w' : World σ) : w.compile e c sql pos ≠ (.error code, w') :=
  fun hc => h.1 _ _ _ _ _ code (congrArg Prod.fst hc)

theorem Engine.NoFail.step_cases (h : e.NoFail) (w : World σ) (st : Stmt) :
    (w.step e st).1 = sqliteRow ∨ (w.step e st).1 = sqliteDone :=
  h.2 _ _

/-! ## §5 Soundness: what the caller reads is a run of the reference -/

variable (e c) in
/-- What is left of a run once statement `st`, which ends at byte `pos`, has produced its
    current row: the rest of its rows, then the statements after it. -/
def RowsLeft (sql : String) (st : Stmt) (pos : Nat) (w : World σ) (rest : List (RowView σ))
    (w' : World σ) : Prop :=
  ∃ rows w1 more, Steps e st w rows w1 ∧ Runs e c sql pos (w1.finalize e st) more w' ∧
    rest = rows ++ more

/-- Passing over statements that are DONE at once is part of a run of the reference. -/
theorem Req.Skips.runs {sql : String} {pos pos' : Nat} {w w' w'' : World σ} {rows}
    (h : Req.Skips e c sql pos w pos' w') (hr : Runs e c sql pos' w' rows w'') :
    Runs e c sql pos w rows w'' := by
  induction h with
  | refl => exact hr
  | done hlt hc hs _ ih => simpa using Runs.stmt hlt hc (.done hs) (ih hr)

/-- A finished `exec_select` loop either ran to the end of the buffer, or stopped at the
    first row of a statement, with the rest of the run still to come. -/
theorem execSelectLoop_sound (hcols : e.RowsHaveColumns) {n k : Nat} {r r' : Req}
    {w w' : World σ} (h : loop (fun _ => Req.execSelectBody e c) n (r, w) = .ret k (r', w')) :
    r'.sql = r.sql ∧ (k = 0 → Runs e c r.sql r.pos (w.release e r.stmt) [] w') ∧
    (0 < k → ∃ st, r'.stmt = some st ∧ r'.cols = k ∧
      ∀ rest w'', RowsLeft e c r.sql st r'.pos w' rest w'' →
        Runs e c r.sql r.pos (w.release e r.stmt) (⟨k, some st, w'.state⟩ :: rest) w'') := by
  obtain ⟨pos, w1, hsk, hstop⟩ := Req.execSelectLoop_cases e c h trivial
  cases hstop with
  | atEnd hend => exact ⟨rfl, fun _ => hsk.runs (.atEnd hend), fun h => absurd h (Nat.lt_irrefl 0)⟩
  | noSql hlt hc =>
    exact ⟨rfl, fun _ => hsk.runs (.noSql hlt hc), fun h => absurd h (Nat.lt_irrefl 0)⟩
  | row hlt hc hs =>
    refine ⟨rfl, fun hk => absurd hk (Nat.pos_iff_ne_zero.1 (hcols.cols_pos hs)),
      fun _ => ⟨_, rfl, rfl, ?_⟩⟩
    rintro rest w'' ⟨rows, w3, more, hsteps, hruns, rfl⟩
    exact hsk.runs (Runs.stmt hlt hc (.row hs hsteps) hruns)

theorem execSelect_ret {n k : Nat} {r : Req} {w : World σ} {s : Req × World σ}
    (h : Req.execSelect e c n r w = .ret k s) :
    r.cols = 0 ∧ loop (fun _ => Req.execSelectBody e c) n (r, w) = .ret k s := by
  unfold Req.execSelect at h
  split at h
  · cases h
  · exact ⟨not_not.1 ‹_›, h⟩

variable (e c) in
/-- What the caller still has to read from a state, by the reference. -/
def Pending : Caller σ → List (RowView σ) → World σ → Prop
  | ⟨.select, r, w, _⟩, rest, w' => Runs e c r.sql r.pos (w.release e r.stmt) rest w'
  | ⟨.rows, r, w, _⟩, rest, w' => ∃ st, r.stmt = some st ∧ RowsLeft e c r.sql st r.pos w rest w'

/-- Every finished run of the caller's loop reads the rows still pending in the reference. -/
theorem protocolLoop_sound (hcols : e.RowsHaveColumns) {n : Nat} {cs cs' : Caller σ} {rows}
    (h : loop (protocolBody e c) n cs = .ret rows cs') :
    ∃ rest, rows = cs.rows ++ rest ∧ Pending e c cs rest cs'.world := by
  induction n generalizing cs with
  | zero => cases h
  | succ n ih =>
    rw [loop_succ] at h
    obtain ⟨_ | _, r, w, acc⟩ := cs
    · -- `exec_select()`
      simp only [protocolBody] at h
      rcases hx : Req.execSelect e c n r w with ⟨k, r1, w1⟩ | ⟨x, r1, w1⟩ | ⟨r1, w1⟩ <;>
        rw [hx] at h
      · obtain ⟨-, hl⟩ := execSelect_ret hx
        obtain ⟨hsql, h0, hrow⟩ := execSelectLoop_sound hcols hl
        rcases k with _ | k <;> simp only at h
        · cases h
          exact ⟨[], (List.append_nil _).symm, h0 rfl⟩
        · obtain ⟨rest, hrows, st, hst, hl'⟩ := ih h
          obtain ⟨st0, hst0, -, hrest⟩ := hrow (Nat.succ_pos k)
          rw [hst0] at hst hrows
          cases hst
          refine ⟨_ :: rest, by simp [hrows], hrest rest _ ?_⟩
          rwa [hsql] at hl'
      · cases h
      · cases h
    · -- `next_row()`
      simp only [protocolBody, Req.nextRow_eq] at h
      rcases hst : r.stmt with _ | st <;> simp only [hst] at h
      · cases h
      by_cases hc0 : r.cols = 0
      · simp only [hc0, if_true] at h
        cases h
      rcases hs : w.step e st with ⟨code, w2⟩
      simp only [hc0, hs, if_false] at h
      by_cases hd : code = sqliteDone
      · subst hd
        simp only [if_true] at h
        obtain ⟨rest, hrows, hruns⟩ := ih h
        exact ⟨rest, hrows, st, hst, [], w2, rest, .done hs, by simpa [hst] using hruns, rfl⟩
      by_cases hr : code = sqliteRow
      · subst hr
        obtain ⟨k, hk⟩ := hcols.cols_succ hs
        simp only [hd, if_false, ne_eq, not_true_eq_false, hk] at h
        obtain ⟨rest, hrows, st', hst', rows, w3, more, hsteps, hruns, hrest⟩ := ih h
        rw [hst] at hst'
        cases hst'
        refine ⟨⟨e.columnCount w2.state st, some st, w2.state⟩ :: rest, by simp [hrows, hst, hk],
          st, hst, _, w3, more, .row hs hsteps, hruns, by simp [hrest]⟩
      · simp only [hd, hr, if_false, if_true, ne_eq, not_false_eq_true] at h
        cases h

/-- **Soundness.** What the caller reads from a `Req` is a run of the reference from the
    `Req`'s offset, once its last statement is released; the final engine state, log
    included, is the reference's. -/
theorem protocol_sound (hcols : e.RowsHaveColumns) {n : Nat} {r : Req} {w : World σ} {rows}
    {cs : Caller σ} (h : protocol e c n r w = .ret rows cs) :
    Runs e c r.sql r.pos (w.release e r.stmt) rows cs.world := by
  obtain ⟨rest, rfl, hp⟩ := protocolLoop_sound hcols h
  simpa using hp

/-! ## §6 Completeness: every run of the reference is read by the caller -/

theorem protocolBody_finished {n : Nat} {cs : Caller σ} (h : (protocolBody e c n cs).Finished) :
    protocolBody e c (n + 1) cs = protocolBody e c n cs := by
  obtain ⟨_ | _, r, w, acc⟩ := cs
  · simp only [protocolBody] at h ⊢
    cases hx : Req.execSelect e c n r w with
    | spin s => rw [hx] at h; exact absurd h id
    | _ => rw [Req.execSelect_succ e c (by rw [hx]; trivial), hx]
  · rfl

theorem protocolLoop_fuelMono : FuelMono (loop (protocolBody e c)) :=
  loop_fuelMono fun _ _ => protocolBody_finished

/-- A statement that is DONE at its first step is skipped inside `exec_select`, as if the
    caller had called `exec_select()` again after it. -/
theorem protocol_skip {r r1 : Req} {w w1 : World σ}
    (hb : Req.execSelectBody e c (r, w) = .next (r1, w1)) (hr : r.cols = 0) (hr1 : r1.cols = 0)
    {n : Nat} {acc}
    (hfin : (loop (protocolBody e c) n ⟨.select, r1, w1, acc⟩).Finished) :
    loop (protocolBody e c) (n + 1) ⟨.select, r, w, acc⟩ =
      loop (protocolBody e c) n ⟨.select, r1, w1, acc⟩ := by
  rcases n with _ | m
  · exact absurd hfin id
  have hx : Req.execSelect e c (m + 1) r w = Req.execSelect e c m r1 w1 := by
    simp only [Req.execSelect, hr, hr1, ne_eq, not_true_eq_false, if_false, loop_succ, hb]
  rw [loop_succ] at hfin ⊢
  rw [loop_succ]
  have hbody : protocolBody e c (m + 1) ⟨.select, r, w, acc⟩ =
      protocolBody e c m ⟨.select, r1, w1, acc⟩ := by
    simp only [protocolBody, hx]
  rw [hbody]
  cases hp : protocolBody e c m ⟨.select, r1, w1, acc⟩ with
  | next cs => rw [hp] at hfin; exact protocolLoop_fuelMono m cs hfin
  | exit o => rfl

/-- The caller holding a row of `st` reads the rest of its rows, then whatever the
    caller at the next `exec_select()` reads. -/
theorem protocol_rows_complete (hcols : e.RowsHaveColumns) {st : Stmt} {w w1 : World σ} {rows}
    (hs : Steps e st w rows w1) {r : Req} (acc : List (RowView σ)) {rest} {w' : World σ}
    (hst : r.stmt = some st) (hc : r.cols ≠ 0)
    (hk : ∀ acc', ∃ n cs, loop (protocolBody e c) n ⟨.select, { r with cols := 0 }, w1, acc'⟩ =
      .ret (acc' ++ rest) cs ∧ cs.world = w') :
    ∃ n cs, loop (protocolBody e c) n ⟨.rows, r, w, acc⟩ = .ret (acc ++ (rows ++ rest)) cs ∧
      cs.world = w' := by
  induction hs generalizing acc with
  | done hstep =>
    obtain ⟨n, cs, h, hw⟩ := hk acc
    refine ⟨n + 1, cs, ?_, hw⟩
    rw [loop_succ]
    simpa [protocolBody, Req.nextRow_eq, hst, hc, hstep] using h
  | @row w w2 w1 rows hstep _ ih =>
    obtain ⟨k, hck⟩ := hcols.cols_succ hstep
    obtain ⟨n, cs, h, hw⟩ := ih (acc ++ [⟨e.columnCount w2.state st, some st, w2.state⟩]) hk
    refine ⟨n + 1, cs, ?_, hw⟩
    rw [loop_succ]
    simpa [protocolBody, Req.nextRow_eq, hst, hc, hstep, hck] using h

theorem protocolLoop_select_zero {n : Nat} {r : Req} {w : World σ} {s : Req × World σ} {acc}
    (h : Req.execSelect e c n r w = .ret 0 s) :
    loop (protocolBody e c) (n + 1) ⟨.select, r, w, acc⟩ = .ret acc ⟨.select, s.1, s.2, acc⟩ := by
  rw [loop_succ]
  simp only [protocolBody, h]

theorem protocolLoop_select_row {n k : Nat} {r r1 : Req} {w w1 : World σ} {acc}
    (h : Req.execSelect e c n r w = .ret (k + 1) (r1, w1)) :
    loop (protocolBody e c) (n + 1) ⟨.select, r, w, acc⟩ =
      loop (protocolBody e c) n ⟨.rows, r1, w1, acc ++ [⟨k + 1, r1.stmt, w1.state⟩]⟩ := by
  rw [loop_succ]
  simp only [protocolBody, h]

/-- `exec_select` with one pass of fuel, when that pass leaves the loop. -/
theorem execSelect_one {r : Req} {w : World σ} {o} (hr : r.cols = 0)
    (hb : Req.execSelectBody e c (r, w) = .exit o) : Req.execSelect e c 1 r w = o := by
  simp only [Req.execSelect, hr, ne_eq, not_true_eq_false, if_false, loop_succ, hb]

/-- The caller at `exec_select()` reads every run of the reference from its offset. -/
theorem protocol_select_complete (hcols : e.RowsHaveColumns) {sql : String} {pos : Nat}
    {w0 w' : World σ} {rest} (h : Runs e c sql pos w0 rest w') :
    ∀ (r : Req) (w : World σ) (acc : List (RowView σ)), r.sql = sql → r.pos = pos → r.cols = 0 →
      w.release e r.stmt = w0 →
      ∃ n cs, loop (protocolBody e c) n ⟨.select, r, w, acc⟩ = .ret (acc ++ rest) cs ∧
        cs.world = w' := by
  induction h with
  | atEnd hend =>
    intro r w acc hsql hpos hr hw
    subst hsql hpos
    have hb := Req.execSelectBody_of_le e c (w := w) hend
    exact ⟨2, _, by simpa using protocolLoop_select_zero (execSelect_one hr hb), hw⟩
  | noSql hlt hc =>
    intro r w acc hsql hpos hr hw
    subst hsql hpos hw
    have hb := Req.execSelectBody_of_lt e c (w := w) hlt
    rw [hc] at hb
    exact ⟨2, _, by simpa using protocolLoop_select_zero (execSelect_one hr hb), rfl⟩
  | @stmt pos used st w0 w2 w1 w' rows rest hlt hc hsteps _ ih =>
    intro r w acc hsql hpos hr hw
    subst hsql hpos hw
    have hb := Req.execSelectBody_of_lt e c (w := w) hlt
    rw [hc] at hb
    cases hsteps with
    | done hstep =>
      simp only [hstep, if_true] at hb
      obtain ⟨n, cs, h, hw'⟩ := ih { r with stmt := some st, pos := r.pos + used } w1 acc
        rfl rfl hr rfl
      refine ⟨n + 1, cs, ?_, hw'⟩
      rw [protocol_skip hb hr hr (by rw [h]; trivial), h, List.nil_append]
    | @row _ w3 _ rows' hstep hsteps' =>
      obtain ⟨k, hk⟩ := hcols.cols_succ hstep
      simp only [hstep, sqliteRow_ne_sqliteDone, if_false, ne_eq, not_true_eq_false, hk] at hb
      have hsel := execSelect_one hr hb
      obtain ⟨n, cs, h, hw'⟩ := protocol_rows_complete hcols hsteps'
        (r := { r with stmt := some st, pos := r.pos + used, cols := k + 1 })
        (acc ++ [⟨k + 1, some st, w3.state⟩]) rfl (Nat.succ_ne_zero k)
        (fun a => ih { r with stmt := some st, pos := r.pos + used, cols := 0 } _ a rfl rfl rfl rfl)
      rcases n with _ | n
      · cases h
      refine ⟨n + 2, cs, ?_, hw'⟩
      have hsel' :=
        (Req.execSelect_mono e c (Nat.le_add_left 1 n) (by rw [hsel]; trivial)).trans hsel
      rw [protocolLoop_select_row hsel', h, hk]
      simp

/-- **Completeness.** Every run of the reference from a `Req`'s offset is read by the
    caller, with enough fuel. -/
theorem protocol_complete (hcols : e.RowsHaveColumns) {r : Req} (hr : r.cols = 0)
    {w w' : World σ} {rows} (h : Runs e c r.sql r.pos (w.release e r.stmt) rows w') :
    ∃ n cs, protocol e c n r w = .ret rows cs ∧ cs.world = w' :=
  protocol_select_complete hcols h r w [] rfl rfl hr rfl

/-! ## §7 The caller never raises when the engine never fails -/

/-- The guards of the call the caller is about to make: no current row before
    `exec_select()`, a statement with a row before `next_row()`. -/
def Caller.Ready (cs : Caller σ) : Prop :=
  match cs.phase with
  | .select => cs.req.cols = 0
  | .rows => cs.req.stmt.isSome ∧ cs.req.cols ≠ 0

theorem execSelectLoop_no_raise (hnf : e.NoFail) {n : Nat} {r : Req} {w : World σ} {x s} :
    loop (fun _ => Req.execSelectBody e c) n (r, w) ≠ .raise x s := by
  intro h
  obtain ⟨pos, w1, -, hstop⟩ := Req.execSelectLoop_cases e c h trivial
  cases hstop with
  | compileError _ hc => exact hnf.compile_ne _ _ _ _ _ hc
  | @stepError _ st code w0 _ _ _ hs hr hd =>
    rcases hnf.step_cases w0 st with h | h <;> rw [hs] at h
    · exact hr h
    · exact hd h

theorem protocolLoop_no_raise (hnf : e.NoFail) (hcols : e.RowsHaveColumns) {n : Nat}
    {cs : Caller σ} (hready : cs.Ready) {x cs'} : loop (protocolBody e c) n cs ≠ .raise x cs' := by
  induction n generalizing cs with
  | zero => simp
  | succ n ih =>
    rw [loop_succ]
    obtain ⟨_ | _, r, w, acc⟩ := cs
    · have hr : r.cols = 0 := hready
      simp only [protocolBody]
      rcases hx : Req.execSelect e c n r w with ⟨_ | k, r1, w1⟩ | ⟨y, r1, w1⟩ | ⟨r1, w1⟩
      · simp
      · obtain ⟨st, hst, hk, -⟩ := (execSelectLoop_sound hcols (execSelect_ret hx).2).2.2
          (Nat.succ_pos k)
        exact ih (by simp [Caller.Ready, hst, hk])
      · simp only [Req.execSelect, hr, ne_eq, not_true_eq_false, if_false] at hx
        exact absurd hx (execSelectLoop_no_raise hnf)
      · simp
    · obtain ⟨hst, hc⟩ := hready
      obtain ⟨st, hst⟩ := Option.isSome_iff_exists.1 hst
      have hst : r.stmt = some st := hst
      have hc : r.cols ≠ 0 := hc
      simp only [protocolBody, Req.nextRow_eq, hst, hc, if_false]
      rcases hnf.step_cases w st with h | h
      · obtain ⟨k, hk⟩ := hcols.cols_succ (Prod.ext h rfl)
        simp only [h, sqliteRow_ne_sqliteDone, if_false, ne_eq, not_true_eq_false, hk]
        exact ih (by simp [Caller.Ready, hst, hc])
      · simp only [h, if_true]
        exact ih (by simp [Caller.Ready])

/-- **The statement stream refines sequential execution.** From a `Req` with no current
    row (a fresh or a reset one among them), when no compile or step fails, the caller of
    the documented protocol never raises, and it finishes having read `rows`, leaving the
    engine in `w'`, exactly when the statements of the buffer, run one after another from
    the `Req`'s offset, each compiled once and stepped until DONE, yield `rows` and leave
    the engine, and so the log of engine calls, in `w'`. -/
theorem protocol_refines_runs (hnf : e.NoFail) (hcols : e.RowsHaveColumns) {r : Req}
    (hr : r.cols = 0) (w : World σ) :
    (∀ n x cs, protocol e c n r w ≠ .raise x cs) ∧
    ∀ rows w', (∃ n cs, protocol e c n r w = .ret rows cs ∧ cs.world = w') ↔
      Runs e c r.sql r.pos (w.release e r.stmt) rows w' :=
  ⟨fun _ _ _ => protocolLoop_no_raise hnf hcols (show Caller.Ready ⟨.select, r, w, []⟩ from hr),
    fun _ _ => ⟨fun ⟨_, _, h, hw⟩ => hw ▸ protocol_sound hcols h, protocol_complete hcols hr⟩⟩

theorem protocol_refines_runs_oneRow :
    oneRowEngine.NoFail ∧ oneRowEngine.RowsHaveColumns ∧
    (∀ n x cs,
      protocol oneRowEngine ⟨some 0⟩ n (Req.new.append "SELECT 1;") ⟨[], []⟩ ≠ .raise x cs) ∧
    ∀ rows w', (∃ n cs, protocol oneRowEngine ⟨some 0⟩ n (Req.new.append "SELECT 1;") ⟨[], []⟩ =
        .ret rows cs ∧ cs.world = w') ↔
      Runs oneRowEngine ⟨some 0⟩ "SELECT 1;" 0 ⟨[], []⟩ rows w' :=
  ⟨oneRowEngine_noFail, oneRowEngine_rowsHaveColumns,
    protocol_refines_runs oneRowEngine_noFail oneRowEngine_rowsHaveColumns rfl ⟨[], []⟩⟩

end Sqld
