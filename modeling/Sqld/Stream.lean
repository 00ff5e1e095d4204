import Sqld.Exec
import Mathlib.Tactic.SplitIfs
import Mathlib.Logic.Relation

/-!
# The Offset `m_pos`: Compile Windows, Progress and Termination

`Req::prepare` hands the engine the text from `head = m_sql.str() + m_pos`, and advances
`m_pos` by `tail - head`, the bytes the engine consumed. This module follows `m_pos`
through every call: the window each compile is given, that no call but `clear()` and
`reset()` moves `m_pos` back, and that the loops of `exec_select` and `exec` end once
every statement consumes a byte and yields finitely many rows.

## Main definitions
- `EngineCall`, `Sends`: the engine calls a `Req` may make, and a call that makes only
  them; `Call.Sent`: such a call as the log records it.
- `Engine.Advances`, `Engine.RowsBounded`: the engine behaviour termination rests on.

## Main results
- `execSelectLoop_sends`, `execLoop_sends`, `Sends.log`: every compile of `exec_select`
  and `exec` is given `nByte = |s| + 1` from its offset.
- `op_pos_mono`: no call but `clear` and `reset` lowers `m_pos`.
- `stream_terminates`: the measures of both loops, and that both end.
-/

namespace Sqld

variable {σ : Type} (e : Engine σ) (c : Conn)

/-! ## §1 The engine calls a `Req` makes -/

/-- One engine call a `Req` over `sql` may make once it has reached byte `pos`: a compile
    on its connection from a byte at or past `pos` and before the end, a step, or a
    finalize. -/
inductive EngineCall (sql : String) (pos : Nat) : World σ → World σ → Prop
  | compile {pos' : Nat} (w : World σ) : pos ≤ pos' → pos' < sql.utf8ByteSize →
      EngineCall sql pos w (w.compile e c sql pos').2
  | step (w : World σ) (st : Stmt) : EngineCall sql pos w (w.step e st).2
  | finalize (w : World σ) (st : Stmt) : EngineCall sql pos w (w.finalize e st)

/-- From `s` to `t` a call keeps the text, does not move the offset back, and moves the
    world only by engine calls a `Req` may make from `s`'s offset. -/
def Sends (s t : Req × World σ) : Prop :=
  t.1.sql = s.1.sql ∧ s.1.pos ≤ t.1.pos ∧
    Relation.ReflTransGen (EngineCall e c s.1.sql s.1.pos) s.2 t.2

/-- A call `Sends` allows, as the log records it: a compile on connection `db` from a byte
    at or past `pos` and before the end, given `nByte = |sql| + 1`; a step; a finalize. -/
def Call.Sent (db : Option Db) (sql : String) (pos : Nat) : Call → Prop
  | .prepare db' pos' nByte _ =>
    db' = db ∧ pos ≤ pos' ∧ pos' < sql.utf8ByteSize ∧ nByte = sql.utf8ByteSize + 1
  | .step _ _ | .finalize _ => True
  | _ => False

variable {e c}

theorem EngineCall.mono {sql : String} {pos pos' : Nat} {w w' : World σ} (hle : pos ≤ pos')
    (h : EngineCall e c sql pos' w w') : EngineCall e c sql pos w w' := by
  cases h with
  | compile w h₁ h₂ => exact .compile w (Nat.le_trans hle h₁) h₂
  | step w st => exact .step w st
  | finalize w st => exact .finalize w st

/-- What one engine call appends to the log. -/
theorem EngineCall.log {sql : String} {pos : Nat} {w w' : World σ}
    (h : EngineCall e c sql pos w w') : ∃ x, w'.log = w.log ++ [x] ∧ x.Sent c.db sql pos := by
  cases h with
  | compile w h₁ h₂ => exact ⟨_, World.prepare_log e w _ _ _ _, rfl, h₁, h₂, rfl⟩
  | step w st => exact ⟨_, World.step_log e w st, trivial⟩
  | finalize w st => exact ⟨_, World.finalize_log e w st, trivial⟩

variable (e c) in
theorem Sends.refl (s : Req × World σ) : Sends e c s s :=
  ⟨rfl, Nat.le_refl _, .refl⟩

theorem Sends.trans {s t u : Req × World σ} (h₁ : Sends e c s t) (h₂ : Sends e c t u) :
    Sends e c s u := by
  obtain ⟨hsql, hpos, h⟩ := h₁
  obtain ⟨hsql', hpos', h'⟩ := h₂
  exact ⟨hsql'.trans hsql, Nat.le_trans hpos hpos',
    h.trans (h'.mono fun _ _ hc => (hsql ▸ hc).mono hpos)⟩

/-- **The calls a `Req` sends, as the log records them**: each compile is given
    `nByte = |s| + 1` from an offset at or past the one the call started at. -/
theorem Sends.log {s t : Req × World σ} (h : Sends e c s t) :
    ∃ calls, t.2.log = s.2.log ++ calls ∧ ∀ x ∈ calls, x.Sent c.db s.1.sql s.1.pos := by
  obtain ⟨-, -, h⟩ := h
  generalize s.2 = w at h ⊢
  generalize t.2 = w' at h ⊢
  induction h with
  | refl => exact ⟨[], by simp, by simp⟩
  | tail _ hc ih =>
    obtain ⟨calls, hlog, hsent⟩ := ih
    obtain ⟨x, hx, hsx⟩ := hc.log
    refine ⟨calls ++ [x], by simp [hx, hlog], ?_⟩
    simp only [List.mem_append, List.mem_singleton]
    rintro y (hy | rfl)
    · exact hsent y hy
    · exact hsx

/-- A property of the world that every engine call keeps holds after every call of a
    `Req` that `Sends` describes. -/
theorem Sends.world {Q : World σ → Prop} {s t : Req × World σ}
    (hQ : ∀ w w', EngineCall e c s.1.sql s.1.pos w w' → Q w → Q w') (h : Sends e c s t)
    (hs : Q s.2) : Q t.2 := by
  obtain ⟨-, -, h⟩ := h
  generalize s.2 = w at h hs ⊢
  generalize t.2 = w' at h ⊢
  induction h with
  | refl => exact hs
  | tail _ hc ih => exact hQ _ _ hc ih

theorem release_calls (r : Req) (w : World σ) :
    Relation.ReflTransGen (EngineCall e c r.sql r.pos) w (w.release e r.stmt) := by
  unfold World.release
  split
  · exact .refl
  · exact .single (.finalize w _)

/-- **One pass of `exec_select`'s loop** releases the statement, and compiles from the
    offset and steps once, unless the text is used up. -/
theorem execSelectBody_sends {s t : Req × World σ}
    (h : Req.execSelectBody e c s = .next t ∨
      ∃ o, Req.execSelectBody e c s = .exit o ∧ o.state = t) :
    Sends e c s t := by
  obtain ⟨r, w⟩ := s
  have hrel := release_calls (e := e) (c := c) r w
  rw [Req.execSelectBody_eq] at h
  by_cases hend : r.size ≤ r.pos
  · simp only [if_pos hend, reduceCtorEq, false_or, Step.exit.injEq, exists_eq_left'] at h
    subst h
    exact ⟨rfl, Nat.le_refl _, hrel⟩
  simp only [if_neg hend] at h
  have hcomp := hrel.tail (.compile _ (Nat.le_refl r.pos) (Nat.not_le.1 hend))
  rcases hc : (w.release e r.stmt).compile e c r.sql r.pos with ⟨⟨_ | st, used⟩ | code, w1⟩ <;>
    simp only [hc] at h hcomp
  · simp only [reduceCtorEq, false_or, Step.exit.injEq, exists_eq_left'] at h
    subst h
    exact ⟨rfl, Nat.le_add_right _ _, hcomp⟩
  · have key : ∀ r' : Req, r'.sql = r.sql → r'.pos = r.pos + used →
        Sends e c (r, w) (r', (w1.step e st).2) := fun r' hsql hpos =>
      ⟨hsql, show r.pos ≤ r'.pos by omega, hcomp.tail (.step w1 st)⟩
    split_ifs at h <;>
      simp only [reduceCtorEq, false_or, or_false, false_and, exists_false, Step.next.injEq,
        Step.exit.injEq, exists_eq_left', Outcome.state] at h <;>
      subst h <;> exact key _ rfl rfl
  · simp only [reduceCtorEq, false_or, Step.exit.injEq, exists_eq_left'] at h
    subst h
    exact ⟨rfl, Nat.le_refl _, hcomp⟩

/-- **Every run of `exec_select`'s loop**, however it ends, sends only the calls `Sends`
    allows from the offset it started at. -/
theorem execSelectLoop_sends (n : Nat) (s : Req × World σ) :
    Sends e c s (loop (fun _ => Req.execSelectBody e c) n s).state :=
  loop_invariant _ (Sends e c s) (fun _ _ _ h hb => h.trans (execSelectBody_sends (.inl hb)))
    (fun _ _ _ h hb => h.trans (execSelectBody_sends (.inr ⟨_, hb, rfl⟩))) n s (.refl e c s)

theorem execSelect_sends (n : Nat) (r : Req) (w : World σ) :
    Sends e c (r, w) (Req.execSelect e c n r w).state := by
  unfold Req.execSelect
  split
  · exact .refl e c _
  · exact execSelectLoop_sends n _

/-- `next_row` keeps the statement, the text and the offset, and sends at most one step. -/
theorem nextRow_sends (r : Req) (w : World σ) :
    Sends e c (r, w) (Req.nextRow e r w).state ∧ (Req.nextRow e r w).state.1.stmt = r.stmt ∧
      (Req.nextRow e r w).state.1.pos = r.pos := by
  have hstep : ∀ (st : Stmt) (r' : Req), r'.sql = r.sql → r'.pos = r.pos →
      Sends e c (r, w) (r', (w.step e st).2) := fun st r' hsql hpos =>
    ⟨hsql, hpos ▸ Nat.le_refl _, .single (.step w st)⟩
  rw [Req.nextRow_eq]
  rcases hst : r.stmt with _ | st
  · exact ⟨.refl e c _, hst, rfl⟩
  · simp only
    split_ifs <;> first
      | exact ⟨hstep st _ rfl rfl, by simp [Outcome.state, hst], rfl⟩
      | exact ⟨.refl e c _, hst, rfl⟩

/-- Where a pass of the drain loop leaves: where its `next_row` left. -/
theorem drainBody_state {s t : Req × World σ}
    (h : Req.drainBody e s = .next t ∨ ∃ o, Req.drainBody e s = .exit o ∧ o.state = t) :
    t = (Req.nextRow e s.1 s.2).state := by
  obtain ⟨r, w⟩ := s
  simp only [Req.drainBody] at h
  rcases hn : Req.nextRow e r w with ⟨_ | k, s⟩ | ⟨x, s⟩ | s <;>
    simp only [hn, reduceCtorEq, false_or, or_false, false_and, exists_false, Step.next.injEq,
      Step.exit.injEq, exists_eq_left', Outcome.state] at h ⊢ <;> exact h.symm

/-- Where a pass of `exec`'s loop leaves: where its `exec_select` left, or where the drain
    loop left after `exec_select` reported a row. -/
theorem execBody_state {n : Nat} {s t : Req × World σ}
    (h : Req.execBody e c n s = .next t ∨ ∃ o, Req.execBody e c n s = .exit o ∧ o.state = t) :
    t = (Req.execSelect e c n s.1 s.2).state ∨
      ∃ k s1, Req.execSelect e c n s.1 s.2 = .ret (k + 1) s1 ∧
        t = (loop (fun _ => Req.drainBody e) n s1).state := by
  obtain ⟨r, w⟩ := s
  simp only [Req.execBody] at h
  rcases hx : Req.execSelect e c n r w with ⟨_ | k, s1⟩ | ⟨x, s1⟩ | s1 <;>
    simp only [hx, reduceCtorEq, false_or, or_false, false_and, exists_false, Step.next.injEq,
      Step.exit.injEq, exists_eq_left', Outcome.state] at h ⊢
  · exact .inl h.symm
  · refine .inr ⟨k, s1, rfl, ?_⟩
    rcases hd : loop (fun _ => Req.drainBody e) n s1 with ⟨⟨⟩, s2⟩ | ⟨x, s2⟩ | s2 <;>
      simp only [hd, reduceCtorEq, false_or, or_false, false_and, exists_false, Step.next.injEq,
        Step.exit.injEq, exists_eq_left', Outcome.state] at h ⊢ <;> exact h.symm
  · exact h.symm
  · exact h.symm

/-- The drain loop `while (next_row()) {}` keeps the statement and the offset, and sends
    only steps. -/
theorem drainLoop_sends (n : Nat) (s : Req × World σ) :
    Sends e c s (loop (fun _ => Req.drainBody e) n s).state ∧
      (loop (fun _ => Req.drainBody e) n s).state.1.stmt = s.1.stmt ∧
      (loop (fun _ => Req.drainBody e) n s).state.1.pos = s.1.pos := by
  have hbody : ∀ t t' : Req × World σ, t' = (Req.nextRow e t.1 t.2).state →
      (Sends e c s t ∧ t.1.stmt = s.1.stmt ∧ t.1.pos = s.1.pos) →
      Sends e c s t' ∧ t'.1.stmt = s.1.stmt ∧ t'.1.pos = s.1.pos := by
    rintro t _ rfl ⟨h, hst, hpos⟩
    obtain ⟨h', hst', hpos'⟩ := nextRow_sends (c := c) (e := e) t.1 t.2
    exact ⟨h.trans h', hst'.trans hst, hpos'.trans hpos⟩
  exact loop_invariant _ _ (fun _ t t' h hb => hbody t t' (drainBody_state (.inl hb)) h)
    (fun _ t o h hb => hbody t _ (drainBody_state (.inr ⟨o, hb, rfl⟩)) h) n s
    ⟨.refl e c s, rfl, rfl⟩

theorem execBody_sends {n : Nat} {s t : Req × World σ}
    (h : Req.execBody e c n s = .next t ∨ ∃ o, Req.execBody e c n s = .exit o ∧ o.state = t) :
    Sends e c s t := by
  rcases execBody_state h with rfl | ⟨k, s1, hx, rfl⟩
  · exact execSelect_sends n s.1 s.2
  · have hsel := execSelect_sends (e := e) (c := c) n s.1 s.2
    rw [hx] at hsel
    exact hsel.trans (drainLoop_sends n s1).1

/-- **Every run of `exec`'s loop**, however it ends, sends only the calls `Sends` allows
    from the offset it started at. -/
theorem execLoop_sends (n : Nat) (s : Req × World σ) :
    Sends e c s (loop (Req.execBody e c) n s).state :=
  loop_invariant _ (Sends e c s) (fun _ _ _ h hb => h.trans (execBody_sends (.inl hb)))
    (fun _ _ _ h hb => h.trans (execBody_sends (.inr ⟨_, hb, rfl⟩))) n s (.refl e c s)

theorem exec_sends (n : Nat) (r : Req) (w : World σ) :
    Sends e c (r, w) (Req.exec e c n r w).state := by
  unfold Req.exec
  split
  · exact .refl e c _
  · exact execLoop_sends n _

/-- **A property of the world that every engine call keeps survives every call of a
    client** on a `Req`, whether it returns, raises or is cut off. -/
theorem op_world {Q : World σ → Prop} {r : Req}
    (hQ : ∀ w w', EngineCall e c r.sql 0 w w' → Q w → Q w') (n : Nat) (op : Req.Op)
    {w : World σ} (hw : Q w) : Q (Req.Op.run e c n op r w).state.2 := by
  have hQ' : ∀ w w', EngineCall e c r.sql r.pos w w' → Q w → Q w' :=
    fun w w' h => hQ w w' (h.mono (Nat.zero_le _))
  cases op with
  | append => exact hw
  | clear | reset =>
    simp only [Req.Op.run, Req.clear, Req.reset, Req.finalize_eq, Outcome.state]
    exact Sends.world (s := (r, w)) (t := ({ r with stmt := none }, w.release e r.stmt)) hQ'
      ⟨rfl, Nat.le_refl _, release_calls r w⟩ hw
  | execSelect => simpa [Req.Op.run] using (execSelect_sends n r w).world hQ' hw
  | nextRow => simpa [Req.Op.run] using (nextRow_sends (c := c) r w).1.world hQ' hw
  | exec => exact (exec_sends n r w).world hQ' hw

/-- `BEGIN;COMMIT;` (13 bytes), as sqlite splits it: `exec_select()` compiles `COMMIT;`
    from byte 6 with `nByte = 14`, a window that runs to byte 20, past the terminator at
    byte 13. -/
theorem execSelect_window_past_end :
    .prepare (some 0) 6 14 (.ok (some 1) 7) ∈
      (Req.execSelect tapeEngine ⟨some 0⟩ 3 (Req.new.append "BEGIN;COMMIT;")
        ⟨⟨[], [], [.ok (some 0) 6, .ok (some 1) 7], [sqliteDone, sqliteDone], none⟩,
          []⟩).state.2.log ∧
    6 < (Req.new.append "BEGIN;COMMIT;").size ∧
    (Req.new.append "BEGIN;COMMIT;").size + 1 < 6 + 14 := by
  decide

/-! ## §2 `m_pos` never moves back -/

/-- **No call but `clear()` and `reset()` lowers `m_pos`**, whether it returns, raises or is
    cut off. -/
theorem op_pos_mono (n : Nat) (op : Req.Op) (r : Req) (w : World σ) (hc : op ≠ .clear)
    (hr : op ≠ .reset) : r.pos ≤ (Req.Op.run e c n op r w).state.1.pos := by
  cases op with
  | append => exact Nat.le_refl _
  | clear => exact absurd rfl hc
  | reset => exact absurd rfl hr
  | execSelect => simpa [Req.Op.run] using (execSelect_sends (e := e) (c := c) n r w).2.1
  | nextRow => simp [Req.Op.run, (nextRow_sends (e := e) (c := c) r w).2.2]
  | exec => exact (exec_sends n r w).2.1

/-! ## §3 Termination -/

variable (e) in
/-- Each statement the engine compiles from a byte before the end consumes at least one
    byte: `tail > head`. -/
def Engine.Advances : Prop :=
  ∀ s db sql pos n st used, pos < sql.utf8ByteSize →
    (e.prepare s db sql pos n).2 = .ok (some st) used → 0 < used

variable (e) in
/-- `rowsLeft s st` ranks the rows statement `st` has still to yield from engine state `s`:
    a step that yields a row lowers it, so that every statement yields finitely many rows. -/
def Engine.RowsBounded (rowsLeft : σ → Stmt → Nat) : Prop :=
  ∀ s st, (e.step s st).2 = sqliteRow → rowsLeft (e.step s st).1 st < rowsLeft s st

theorem Engine.Advances.compile (hadv : e.Advances) {w w' : World σ} {sql : String}
    {pos used : Nat} {st : Stmt} (hlt : pos < sql.utf8ByteSize)
    (hc : w.compile e c sql pos = (.ok (some st) used, w')) : 0 < used :=
  hadv _ _ _ _ _ _ _ hlt (congrArg Prod.fst hc)

theorem Req.Skips.le {sql : String} {pos pos' : Nat} {w w' : World σ}
    (h : Req.Skips e c sql pos w pos' w') : pos ≤ pos' := by
  induction h with
  | refl => exact Nat.le_refl _
  | done _ _ _ _ ih => omega

/-- A pass of `exec_select`'s loop that goes round again has consumed a statement. -/
theorem execSelectBody_next_measure (hadv : e.Advances) {r r' : Req} {w w' : World σ}
    (h : Req.execSelectBody e c (r, w) = .next (r', w')) :
    r'.sql = r.sql ∧ r'.size - r'.pos < r.size - r.pos := by
  rw [Req.execSelectBody_eq] at h
  by_cases hend : r.size ≤ r.pos
  · simp [if_pos hend] at h
  rw [if_neg hend] at h
  have hlt : r.pos < r.size := Nat.not_le.1 hend
  rcases hc : (w.release e r.stmt).compile e c r.sql r.pos with ⟨⟨_ | st, used⟩ | code, w1⟩ <;>
    simp only [hc, reduceCtorEq] at h
  split_ifs at h
  simp only [Step.next.injEq, Prod.mk.injEq] at h
  obtain ⟨rfl, rfl⟩ := h
  have := hadv.compile hlt hc
  exact ⟨rfl, show r.size - (r.pos + used) < r.size - r.pos by omega⟩

theorem execSelectBody_exit_finished {s : Req × World σ} {o}
    (h : Req.execSelectBody e c s = .exit o) : o.Finished := by
  obtain ⟨r, w⟩ := s
  rw [Req.execSelectBody_eq] at h
  split_ifs at h
  · cases h; trivial
  rcases hc : (w.release e r.stmt).compile e c r.sql r.pos with ⟨⟨_ | st, used⟩ | code, w1⟩ <;>
    simp only [hc] at h
  · cases h; trivial
  · split_ifs at h <;> cases h <;> trivial
  · cases h; trivial

/-- `exec_select` ends within one pass more than the bytes left. -/
theorem execSelect_finished (hadv : e.Advances) (r : Req) (w : World σ) :
    (Req.execSelect e c (r.size - r.pos + 1) r w).Finished := by
  unfold Req.execSelect
  split
  · trivial
  · exact loop_finished _ (fun s => s.1.size - s.1.pos)
      (fun _ _ _ hb => (execSelectBody_next_measure hadv hb).2)
      (fun _ _ _ hb => execSelectBody_exit_finished hb) _ _ (Nat.lt_succ_self _)

theorem nextRow_finished (r : Req) (w : World σ) : (Req.nextRow e r w).Finished := by
  rw [Req.nextRow_eq]
  split
  · trivial
  · split_ifs <;> trivial

/-- `next_row` reports a row only when its step yielded one, and then keeps the `Req`. -/
theorem nextRow_ret_succ {r : Req} {w : World σ} {k : Nat} {t : Req × World σ}
    (h : Req.nextRow e r w = .ret (k + 1) t) :
    ∃ st, r.stmt = some st ∧ (w.step e st).1 = sqliteRow ∧ t = (r, (w.step e st).2) := by
  rw [Req.nextRow_eq] at h
  rcases hst : r.stmt with _ | st <;> simp only [hst] at h
  · cases h
  · split_ifs at h with h0 hd hr <;> try cases h
    simp only [Outcome.ret.injEq] at h
    exact ⟨st, rfl, not_not.1 hr, h.2.symm⟩

theorem drainBody_next {s t : Req × World σ} (h : Req.drainBody e s = .next t) :
    ∃ k, Req.nextRow e s.1 s.2 = .ret (k + 1) t := by
  obtain ⟨r, w⟩ := s
  simp only [Req.drainBody] at h
  rcases hn : Req.nextRow e r w with ⟨_ | k, s⟩ | ⟨x, s⟩ | s <;>
    simp only [hn, reduceCtorEq, Step.next.injEq] at h
  exact ⟨k, h ▸ rfl⟩

theorem drainBody_exit_finished {s : Req × World σ} {o} (h : Req.drainBody e s = .exit o) :
    o.Finished := by
  obtain ⟨r, w⟩ := s
  have hfin := nextRow_finished (e := e) r w
  simp only [Req.drainBody] at h
  rcases hn : Req.nextRow e r w with ⟨_ | k, s⟩ | ⟨x, s⟩ | s <;>
    simp only [hn, reduceCtorEq, Step.exit.injEq] at h hfin
  · exact h ▸ trivial
  · exact h ▸ trivial
  · exact absurd hfin id

/-- The drain loop ends within one pass more than the rows its statement has left. -/
theorem drainLoop_finished {rowsLeft : σ → Stmt → Nat} (hrows : e.RowsBounded rowsLeft)
    (s : Req × World σ) :
    (loop (fun _ => Req.drainBody e)
      ((s.1.stmt.map (rowsLeft s.2.state)).getD 0 + 1) s).Finished := by
  refine loop_finished _ (fun s => (s.1.stmt.map (rowsLeft s.2.state)).getD 0)
    (fun _ s t hb => ?_) (fun _ _ _ hb => drainBody_exit_finished hb) _ _ (Nat.lt_succ_self _)
  obtain ⟨k, hk⟩ := drainBody_next hb
  obtain ⟨st, hst, hrow, rfl⟩ := nextRow_ret_succ hk
  simpa [hst] using hrows s.2.state st hrow

/-- `exec_select` reports a row only at a statement it compiled, past its starting offset. -/
theorem execSelect_ret_succ (hadv : e.Advances) {n k : Nat} {r r1 : Req} {w w1 : World σ}
    (h : Req.execSelect e c n r w = .ret (k + 1) (r1, w1)) :
    r1.sql = r.sql ∧ r1.size - r1.pos < r.size - r.pos := by
  unfold Req.execSelect at h
  split at h
  · cases h
  generalize hk : k + 1 = k' at h
  obtain ⟨pos, w', hsk, hstop⟩ := Req.execSelectLoop_cases e c h trivial
  have hle := hsk.le
  cases hstop with
  | atEnd => cases hk
  | noSql => cases hk
  | @row used st _ _ hlt hc _ =>
    have := hadv.compile hlt hc
    exact ⟨rfl, show r.sql.utf8ByteSize - (pos + used) < r.sql.utf8ByteSize - r.pos by omega⟩

theorem execBody_next {n : Nat} {s t : Req × World σ} (h : Req.execBody e c n s = .next t) :
    ∃ k s1, Req.execSelect e c n s.1 s.2 = .ret (k + 1) s1 ∧
      loop (fun _ => Req.drainBody e) n s1 = .ret () t := by
  obtain ⟨r, w⟩ := s
  simp only [Req.execBody] at h
  rcases hx : Req.execSelect e c n r w with ⟨_ | k, s1⟩ | ⟨x, s1⟩ | s1 <;>
    simp only [hx, reduceCtorEq] at h
  rcases hd : loop (fun _ => Req.drainBody e) n s1 with ⟨⟨⟩, s2⟩ | ⟨x, s2⟩ | s2 <;>
    simp only [hd, reduceCtorEq, Step.next.injEq] at h
  exact ⟨k, s1, rfl, by rw [hd, h]⟩

/-- Where a pass of `exec`'s loop that leaves the loop ends: with its `exec_select`, or
    with the drain loop after `exec_select` reported a row. -/
theorem execBody_exit {n : Nat} {s : Req × World σ} {o} (h : Req.execBody e c n s = .exit o) :
    o = (Req.execSelect e c n s.1 s.2).unit ∨
      ∃ k s1, Req.execSelect e c n s.1 s.2 = .ret (k + 1) s1 ∧
        o = loop (fun _ => Req.drainBody e) n s1 := by
  obtain ⟨r, w⟩ := s
  simp only [Req.execBody] at h
  rcases hx : Req.execSelect e c n r w with ⟨_ | k, s1⟩ | ⟨x, s1⟩ | s1 <;>
    simp only [hx, reduceCtorEq, Step.exit.injEq] at h
  · exact .inl (by simp [← h, Outcome.unit])
  · refine .inr ⟨k, s1, rfl, ?_⟩
    rcases hd : loop (fun _ => Req.drainBody e) n s1 with ⟨⟨⟩, s2⟩ | ⟨x, s2⟩ | s2 <;>
      simp only [hd, reduceCtorEq, Step.exit.injEq] at h <;> exact h.symm
  · exact .inl (by simp [← h, Outcome.unit])
  · exact .inl (by simp [← h, Outcome.unit])

/-- The drain loop ends where it started in the text. -/
theorem drainLoop_ret {n : Nat} {s t : Req × World σ}
    (h : loop (fun _ => Req.drainBody e) n s = .ret () t) :
    t.1.sql = s.1.sql ∧ t.1.pos = s.1.pos := by
  have := drainLoop_sends (e := e) (c := ⟨none⟩) n s
  rw [h] at this
  exact ⟨this.1.1, this.2.2⟩

/-- A pass of `exec`'s loop that goes round again has consumed a statement. -/
theorem execBody_next_measure (hadv : e.Advances) {n : Nat} {r r' : Req} {w w' : World σ}
    (h : Req.execBody e c n (r, w) = .next (r', w')) :
    r'.sql = r.sql ∧ r'.size - r'.pos < r.size - r.pos := by
  obtain ⟨k, ⟨r1, w1⟩, hx, hd⟩ := execBody_next h
  obtain ⟨hsql, hlt⟩ := execSelect_ret_succ hadv hx
  obtain ⟨hsql', hpos'⟩ : r'.sql = r1.sql ∧ r'.pos = r1.pos := drainLoop_ret hd
  exact ⟨hsql'.trans hsql, by simpa [Req.size, hsql', hpos'] using hlt⟩

/-- `exec`'s loop ends from `(r, w)` once it ends from every state with fewer bytes left. -/
theorem execLoop_finished_of (hadv : e.Advances) {rowsLeft : σ → Stmt → Nat}
    (hrows : e.RowsBounded rowsLeft) {r : Req} {w : World σ}
    (ih : ∀ (r' : Req) (w' : World σ), r'.size - r'.pos < r.size - r.pos →
      ∃ n, (loop (Req.execBody e c) n (r', w')).Finished) :
    ∃ n, (loop (Req.execBody e c) n (r, w)).Finished := by
  have hsel := execSelect_finished (c := c) hadv r w
  rcases hx : Req.execSelect e c (r.size - r.pos + 1) r w with ⟨_ | k, s1⟩ | ⟨x, s1⟩ | s1
  · exact ⟨r.size - r.pos + 1 + 1, by rw [loop_succ]; simp [Req.execBody, hx]⟩
  · obtain ⟨r1, w1⟩ := s1
    have hlt := (execSelect_ret_succ hadv hx).2
    have hd := drainLoop_finished hrows (r1, w1)
    rcases hdr : loop (fun _ => Req.drainBody e) ((r1.stmt.map (rowsLeft w1.state)).getD 0 + 1)
      (r1, w1) with ⟨⟨⟩, ⟨r2, w2⟩⟩ | ⟨x, s2⟩ | s2
    · obtain ⟨hsql, hpos⟩ : r2.sql = r1.sql ∧ r2.pos = r1.pos := drainLoop_ret hdr
      obtain ⟨n3, h3⟩ := ih r2 w2 (by simpa [Req.size, hsql, hpos] using hlt)
      exact ⟨_, (execLoop_pass (s := (r, w)) hx hdr h3).symm ▸ h3⟩
    · exact ⟨_, by rw [execLoop_pass_raise (s := (r, w)) hx hdr]; trivial⟩
    · rw [hdr] at hd
      exact absurd hd id
  · exact ⟨r.size - r.pos + 1 + 1, by rw [loop_succ]; simp [Req.execBody, hx]⟩
  · rw [hx] at hsel
    exact absurd hsel id

/-- `exec` ends, from every state, on an engine that advances and bounds its rows. -/
theorem exec_finished (hadv : e.Advances) {rowsLeft : σ → Stmt → Nat}
    (hrows : e.RowsBounded rowsLeft) (r : Req) (w : World σ) :
    ∃ n, (Req.exec e c n r w).Finished := by
  suffices h : ∀ m (r : Req) (w : World σ), r.size - r.pos ≤ m →
      ∃ n, (loop (Req.execBody e c) n (r, w)).Finished by
    unfold Req.exec
    by_cases hr : r.cols ≠ 0
    · exact ⟨0, by simp [hr]⟩
    · simpa [hr] using h _ r w (Nat.le_refl _)
  intro m
  induction m with
  | zero => exact fun r w h0 => execLoop_finished_of hadv hrows fun _ _ h => absurd h (by omega)
  | succ m ih =>
    exact fun r w hm => execLoop_finished_of hadv hrows fun r' w' h => ih r' w' (by omega)

/-- **`m_pos` and the loops of `exec_select` and `exec`.** On an engine whose statements
    each consume a byte and yield finitely many rows: a pass of `exec_select`'s loop that
    goes round again lowers `|s| - m_pos`, and the loop ends; a pass of the drain loop keeps
    the `Req` and lowers the rows left of its statement, and a pass of `exec`'s loop lowers
    `|s| - m_pos`, so that `exec` ends under the lexicographic measure; and no call but
    `clear()` and `reset()` lowers `m_pos`. -/
theorem stream_terminates (hadv : e.Advances) {rowsLeft : σ → Stmt → Nat}
    (hrows : e.RowsBounded rowsLeft) :
    (∀ (r r' : Req) (w w' : World σ), Req.execSelectBody e c (r, w) = .next (r', w') →
      r'.sql = r.sql ∧ r'.size - r'.pos < r.size - r.pos) ∧
    (∀ r w, (Req.execSelect e c (r.size - r.pos + 1) r w).Finished) ∧
    (∀ (r : Req) (w : World σ) (st : Stmt) t, r.stmt = some st → Req.drainBody e (r, w) = .next t →
      t.1 = r ∧ rowsLeft t.2.state st < rowsLeft w.state st) ∧
    (∀ n (r r' : Req) (w w' : World σ), Req.execBody e c n (r, w) = .next (r', w') →
      r'.sql = r.sql ∧ r'.size - r'.pos < r.size - r.pos) ∧
    (∀ r w, ∃ n, (Req.exec e c n r w).Finished) ∧
    (∀ n op r w, op ≠ .clear → op ≠ .reset → r.pos ≤ (Req.Op.run e c n op r w).state.1.pos) := by
  refine ⟨fun _ _ _ _ h => execSelectBody_next_measure hadv h, execSelect_finished hadv,
    fun r w st t hst h => ?_, fun _ _ _ _ _ h => execBody_next_measure hadv h,
    exec_finished hadv hrows, fun n op r w => op_pos_mono n op r w⟩
  obtain ⟨k, hk⟩ := drainBody_next h
  obtain ⟨st', hst', hrow, rfl⟩ := nextRow_ret_succ hk
  cases hst.symm.trans hst'
  exact ⟨rfl, hrows w.state st hrow⟩

theorem oneRowEngine_advances : oneRowEngine.Advances := by
  intro _ _ sql pos _ _ _ hlt h
  simp only [oneRowEngine, Prepared.ok.injEq] at h
  omega

theorem oneRowEngine_rowsBounded :
    oneRowEngine.RowsBounded fun s st => if st ∈ s then 0 else 1 := by
  intro s st h
  by_cases hm : st ∈ s <;> simp_all [oneRowEngine]

theorem stream_terminates_oneRow :
    oneRowEngine.Advances ∧ oneRowEngine.RowsBounded (fun s st => if st ∈ s then 0 else 1) ∧
      ∀ r w, ∃ n, (Req.exec oneRowEngine ⟨some 0⟩ n r w).Finished :=
  ⟨oneRowEngine_advances, oneRowEngine_rowsBounded,
    (stream_terminates (c := ⟨some 0⟩) oneRowEngine_advances oneRowEngine_rowsBounded).2.2.2.2.1⟩

end Sqld
