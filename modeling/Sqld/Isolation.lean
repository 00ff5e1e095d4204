import Sqld.Ownership
import Sqld.Row

/-!
# Rows Across the Objects on One Connection

`m_cols` of a `Req` says that the statement it holds is on a row, and the column accessors
read that row through `sqlite3_column_*`. The row is the engine's: whether the statement is
on one is what the last `sqlite3_step` of it answered. A `Req`'s own calls keep `m_cols` in
step with that answer, but for a failing step of `next_row`, alone or in `exec`'s drain
loop, which keeps `m_cols` on a failed statement (`RowSound`). A program has other `Req`
objects on the same connection, and `Trans` objects with short-lived `Req`s of their own,
and their calls come in any order between the calls of one `Req`. None of them may step,
finalize or compile again a statement another `Req` holds, or that `Req`'s row would change
under it.

The wrapper does not check this; it follows from how each `Req` handles its statement
(`Tracks`): it steps and finalizes only the statement it holds, and sqlite hands out no
handle still live. The calls of every other object leave the `Req` and the last step of
the statement it holds as they were (`HeldStep.kept_or_acts`), so what `m_cols` says of
each `Req` is its own calls' doing, across any interleaving.

## Main definitions
- `RowSound`: what `m_cols` of one `Req` may say once its calls are done.
- `RowsKept`: what a run keeps of one `Req`: the frame of the other objects' calls, and
  `m_cols` failed only by its own.

## Main results
- `lastStep_append_untouched`, `Tracks.untouched`: calls that do not touch a statement leave
  its last step, and the calls of one `Req` touch no statement live before them but its own.
- `Req.Acts.rowSound`: a call of a `Req` keeps its `RowSound`, and leaves it on a failed
  statement only from one or by its `next_row` or `exec`.
- `HeldStep.kept_or_acts`: a call of the program is one of the `Req`'s own, or leaves it and
  the last step of its statement.
- `rows_isolated`: over any run, in any order of calls, the calls of other objects leave a
  `Req` and its row, and every `Req` keeps its `RowSound`, failed only by its own calls.
-/

namespace Sqld

variable {σ : Type}

/-! ## §1 Calls that leave a statement alone -/

/-- A call that hands out no handle `st`, and steps and finalizes none, leaves what the log
    says of `st`. -/
theorem Call.status_untouched {st : Stmt} {x : Call} (hc : x.compiled ≠ some st)
    (hu : x.used ≠ some st) (acc : Option Code) : Call.status st acc x = acc := by
  unfold Call.status
  split <;> simp_all [Call.compiled, Call.used]

theorem lastStep_append_untouched {st : Stmt} (L : List Call) {calls : List Call}
    (h : ∀ x ∈ calls, x.compiled ≠ some st ∧ x.used ≠ some st) :
    lastStep st (L ++ calls) = lastStep st L := by
  induction calls generalizing L with
  | nil => simp
  | cons x xs ih =>
    obtain ⟨hc, hu⟩ := h x (List.mem_cons_self x xs)
    rw [← List.singleton_append, ← List.append_assoc,
      ih _ fun y hy => h y (List.mem_cons_of_mem x hy), lastStep_append,
      Call.status_untouched hc hu]

/-- **The calls of one `Req` leave every other statement alone**: a disciplined run of them,
    where sqlite hands out no live handle, touches no statement live before it but the one
    the `Req` held. -/
theorem Tracks.untouched {L0 L : List Call} {h x : Option Stmt} (hI : Tracks L0 h L x)
    {calls : List Call} {x' : Option Stmt} (ht : Call.trackAll x calls = some x')
    (hf : FreshFrom L calls = true) {st : Stmt} (hl : live st L0 = true) (hh : h ≠ some st) :
    ∀ c ∈ calls, c.compiled ≠ some st ∧ c.used ≠ some st := by
  induction calls generalizing L x with
  | nil => simp
  | cons c calls ih =>
    simp only [Call.trackAll, List.foldlM_cons] at ht
    obtain ⟨x1, h1, h2⟩ := Option.bind_eq_some.1 ht
    simp only [FreshFrom, Bool.and_eq_true] at hf
    have hlive : live st L = true := (hI.live_iff st).2 (.inl ⟨hl, hh⟩)
    have hx : x ≠ some st := fun hx => (hI.held st hx).elim hh (by simp [hl])
    refine List.forall_mem_cons.2 ⟨⟨fun hc => ?_, fun hu => ?_⟩, ih (hI.step h1 hf.1).1 h2 hf.2⟩
    · simp [hc, hlive] at hf
    · rcases Call.track_cases h1 with ⟨-, hu', -⟩ | ⟨s, hxs, hu', -⟩
      · simp [hu'] at hu
      · exact hx (hxs.trans (hu'.symm.trans hu))

/-! ## §2 One `Req` -/

/-- What `m_cols` of a `Req` may say once its calls are done: the spec's invariant, or the
    state a failing step of `next_row` leaves, with `m_cols` on the failed statement. -/
def RowSound (r : Req) (w : World σ) : Prop := RowReady r w ∨ StepFailed r w

section Frame

variable {r : Req} {w w' : World σ}
  (hw : ∀ st, r.stmt = some st → lastStep st w'.log = lastStep st w.log)
include hw

/-- What `m_cols` says of a `Req` rests only on the last step of the statement it holds. -/
theorem RowReady.frame (h : RowReady r w) : RowReady r w' :=
  fun hc => let ⟨st, hst, hl⟩ := h hc; ⟨st, hst, (hw st hst).trans hl⟩

theorem StepFailed.frame (h : StepFailed r w) : StepFailed r w' :=
  let ⟨hc, st, code, hst, hlast, hrow⟩ := h; ⟨hc, st, code, hst, (hw st hst).trans hlast, hrow⟩

end Frame

theorem RowOutcome.rowSound {α : Type} {o : Outcome (Req × World σ) α} (h : RowOutcome o) :
    RowSound o.state.1 o.state.2 := by
  rcases h with h | ⟨_, _, rfl, hf⟩
  · exact .inl h
  · exact .inr hf

variable (e : Engine σ)

/-- `next_row` keeps `RowSound`: from a failed statement it steps it again. -/
theorem nextRow_rowSound {r : Req} {w : World σ} (h : RowSound r w) :
    RowSound (Req.nextRow e r w).state.1 (Req.nextRow e r w).state.2 := by
  rw [Req.nextRow_eq]
  rcases hst : r.stmt with _ | st
  · exact h
  · simp only
    split_ifs with h0 hd hrow
    · exact h
    · exact .inl (.of_cols rfl)
    · exact .inr ⟨h0, st, _, hst, lastStep_step e w st, hrow⟩
    · exact .inl (rowReady_of_step e hst (not_not.1 hrow))

variable {e}

/-- A `Req` left as it was keeps `RowSound`, failed only where it was failed. -/
theorem RowSound.kept {r : Req} {w : World σ} {P : Prop} (h : RowSound r w) :
    RowReady r w ∨ StepFailed r w ∧ (StepFailed r w ∨ P) :=
  h.imp_right fun hf => ⟨hf, .inl hf⟩

/-- **Every call of a `Req` keeps its `RowSound`**, and leaves `m_cols` on a failed statement
    only where it found it so or by its own `next_row`, alone or in `exec`'s drain loop: a
    call that finds `m_cols` set on a failed statement raises the usage error, but for
    `next_row`, which steps it again. -/
theorem Req.Acts.rowSound {j : Nat} {op : ObjOp} {s t : Req × World σ}
    (h : Req.Acts e j op s t) (hs : RowSound s.1 s.2) :
    RowReady t.1 t.2 ∨ StepFailed t.1 t.2 ∧
      (StepFailed s.1 s.2 ∨ op = .req j .nextRow ∨ op = .req j .exec) := by
  cases h with
  | drop r w => exact .inl (.of_cols rfl)
  | op c n op r w =>
    cases op with
    | append text => exact hs.kept
    | clear => exact .inl (.of_cols (by simp [Req.Op.run, Req.clear, Outcome.state]))
    | reset => exact .inl (.of_cols (by simp [Req.Op.run, Req.reset, Outcome.state]))
    | execSelect =>
      simp only [Req.Op.run, Outcome.state_unit]
      by_cases hc : r.cols = 0
      · exact .inl (execSelect_rowReady n (.of_cols hc))
      · rw [show (Req.execSelect e c n r w).state = (r, w) by
          simp [Req.execSelect, hc, Outcome.state]]
        exact hs.kept
    | nextRow =>
      simp only [Req.Op.run, Outcome.state_unit]
      exact (nextRow_rowSound e hs).imp_right fun hf => ⟨hf, .inr (.inl trivial)⟩
    | exec =>
      simp only [Req.Op.run]
      by_cases hc : r.cols = 0
      · rw [exec_eq_loop hc]
        exact (execLoop_rowOutcome n (s := (r, w)) (.of_cols hc)).rowSound.imp_right
          fun hf => ⟨hf, .inr (.inr trivial)⟩
      · rw [show (Req.exec e c n r w).state = (r, w) by simp [Req.exec, hc, Outcome.state]]
        exact hs.kept

/-! ## §3 Every `Req` of the program -/

section Objects

variable {s t : Objects σ} {op : ObjOp} {calls : List Call}

/-- The calls of one `Req`, or of a `Trans`'s short-lived one, leave the last step of every
    statement another `Req` holds. -/
theorem Objects.Owned.lastStep_kept (hs : s.Owned) {h x : Option Stmt}
    (hh : ∀ st, h = some st → live st s.world.log = true) (ht : Call.trackAll h calls = some x)
    (hf : FreshFrom s.world.log calls = true) (hlog : t.world.log = s.world.log ++ calls)
    {k : Nat} {st : Stmt} (hk : (s.reqs k).stmt = some st) (hne : h ≠ some st) :
    lastStep st t.world.log = lastStep st s.world.log := by
  rw [hlog]
  exact lastStep_append_untouched _ ((Tracks.init hh).untouched ht hf (hs.held_live k st hk) hne)

/-- **What one call does to one `Req`**: it is a call of that `Req`, or it leaves the `Req`
    and the last step of the statement it holds as they were. -/
theorem HeldStep.kept_or_acts (hst : HeldStep e op s t calls) (hs : s.Owned)
    (hlog : t.world.log = s.world.log ++ calls) (hf : FreshFrom s.world.log calls = true)
    (k : Nat) :
    (t.reqs k = s.reqs k ∧ ∀ st, (s.reqs k).stmt = some st →
      lastStep st t.world.log = lastStep st s.world.log) ∨
    Req.Acts e k op (s.reqs k, s.world) (t.reqs k, t.world) := by
  cases hst with
  | slot j hk ht hact =>
    rcases eq_or_ne k j with rfl | hkj
    · exact .inr hact
    · exact .inl ⟨hk k hkj, fun st hst => hs.lastStep_kept (hs.held_live j) ht hf hlog hst
        fun hj => hkj (hs.unique k j st hst hj)⟩
  | quiet hr ht =>
    exact .inl ⟨congrFun hr k, fun st hst => hs.lastStep_kept (by simp) ht hf hlog hst (by simp)⟩
  | conn hr hc =>
    refine .inl ⟨congrFun hr k, fun st _ => ?_⟩
    rw [hlog]
    exact lastStep_append_untouched _ fun x hx => by simp [(hc x hx).1, (hc x hx).2]

/-- What a run of the calls `ops` from `s` to `u` keeps of the `Req` at `j`. -/
structure RowsKept (s : Objects σ) (ops : List ObjOp) (u : Objects σ) (j : Nat) : Prop where
  /-- Where none of the calls is one of the `Req`'s, it and the last step of the statement
      it holds are as they were. -/
  frame : (∀ op ∈ ops, ¬ op.OnReq j) → u.reqs j = s.reqs j ∧
    ∀ st, (s.reqs j).stmt = some st → lastStep st u.world.log = lastStep st s.world.log
  /-- `m_cols` is sound, and on a failed statement only where it was so in `s` or after a
      `next_row` or an `exec` of the `Req`. -/
  rows : RowReady (u.reqs j) u.world ∨ StepFailed (u.reqs j) u.world ∧
    (StepFailed (s.reqs j) s.world ∨ .req j .nextRow ∈ ops ∨ .req j .exec ∈ ops)

theorem RowsKept.init {j : Nat} (h : RowSound (s.reqs j) s.world) : RowsKept s [] s j :=
  ⟨fun _ => ⟨rfl, fun _ _ => rfl⟩, h.kept⟩

/-- **One call keeps `RowsKept`.** -/
theorem RowsKept.step {s0 : Objects σ} {ops : List ObjOp} {j : Nat} (hk : RowsKept s0 ops s j)
    (hst : HeldStep e op s t calls) (hs : s.Owned) (hlog : t.world.log = s.world.log ++ calls)
    (hf : FreshFrom s.world.log calls = true) : RowsKept s0 (ops ++ [op]) t j := by
  have lift : ∀ o ∈ ops, o ∈ ops ++ [op] := fun o ho => List.mem_append_left _ ho
  have last : op ∈ ops ++ [op] := List.mem_concat_self ops op
  rcases hst.kept_or_acts hs hlog hf j with ⟨hreq, hlast⟩ | hact
  · refine ⟨fun hno => ?_, ?_⟩
    · obtain ⟨hreq0, hlast0⟩ := hk.frame fun o ho => hno o (lift o ho)
      exact ⟨hreq.trans hreq0, fun st hst => (hlast st (hreq0 ▸ hst)).trans (hlast0 st hst)⟩
    · rw [hreq]
      rcases hk.rows with h | ⟨hfail, hwhy⟩
      · exact .inl (h.frame hlast)
      · exact .inr ⟨hfail.frame hlast, hwhy.imp_right (Or.imp (lift _) (lift _))⟩
  · refine ⟨fun hno => absurd hact.onReq (hno op last), ?_⟩
    rcases hact.rowSound (hk.rows.imp_right And.left) with h | ⟨hfail, hprev | rfl | rfl⟩
    · exact .inl h
    · rcases hk.rows with h | ⟨-, hwhy⟩
      · exact absurd h hprev.not_rowReady
      · exact .inr ⟨hfail, hwhy.imp_right (Or.imp (lift _) (lift _))⟩
    · exact .inr ⟨hfail, .inr (.inl last)⟩
    · exact .inr ⟨hfail, .inr (.inr last)⟩

end Objects

/-- **Rows across the objects on one connection.** Take any run of calls on a `Conn` and on
    any number of `Req` and `Trans` objects, in any order, however each call ends, from
    objects whose live statement handles are the ones their `Req`s hold, each `Req` with
    `RowSound`. Where sqlite hands out no handle that is still live: a run none of whose
    calls is one of a `Req`'s leaves that `Req` and the last step of the statement it holds
    as they were, so no other object's call steps, finalizes or hands out again a statement
    a `Req` holds; and a non-zero `m_cols` means that the statement the `Req` holds was last
    stepped to a row, or that it was last stepped by a failing step and either it was so at
    the start or the `Req`'s own `next_row` or `exec` ran. -/
theorem rows_isolated (e : Engine σ) {ops : List ObjOp} {s t : Objects σ}
    (h : Objects.Trace e ops s t) (hs : s.Owned)
    (hrows : ∀ j, RowReady (s.reqs j) s.world ∨ StepFailed (s.reqs j) s.world) :
    ∃ new, t.world.log = s.world.log ++ new ∧
      (FreshFrom s.world.log new = true → ∀ j,
        ((∀ op ∈ ops, ¬ op.OnReq j) → t.reqs j = s.reqs j ∧
          ∀ st, (s.reqs j).stmt = some st → lastStep st t.world.log = lastStep st s.world.log) ∧
        (RowReady (t.reqs j) t.world ∨ StepFailed (t.reqs j) t.world ∧
          (StepFailed (s.reqs j) s.world ∨ .req j .nextRow ∈ ops ∨ .req j .exec ∈ ops))) := by
  obtain ⟨new, hlog, himp⟩ := h.owned (P := fun ops u => ∀ j, RowsKept s ops u j)
    (fun hst hu hl hf hp j => (hp j).step hst hu hl hf) hs fun j => .init (hrows j)
  exact ⟨new, hlog, fun hf j => ⟨((himp hf).2.2 j).frame, ((himp hf).2.2 j).rows⟩⟩

/-- On one connection, `Req` 0 runs `SELECT 1;` and stays on its row while `Req` 1 runs
    `SELECT 2;` to the end and a `Trans` begins: `Req` 0 still holds `m_cols = 1` on a row,
    and `Req` 2, which no call was on, is as it was. -/
theorem rows_isolated_interleaved :
    ∃ t, Objects.Trace tapeEngine [.construct "m", .req 0 (.append "SELECT 1;"),
        .req 0 .execSelect, .req 1 (.append "SELECT 2;"), .req 1 .exec, .trans 0 .begin]
        ⟨none, fun _ => Req.new, fun _ => Trans.new,
          ⟨⟨[(sqliteOk, some 0)], [], [.ok (some 0) 9, .ok (some 1) 9, .ok (some 2) 6],
            [sqliteRow, sqliteRow, sqliteDone, sqliteDone], none⟩, []⟩⟩ t ∧
      (t.reqs 0).cols = 1 ∧ RowReady (t.reqs 0) t.world ∧ t.reqs 2 = Req.new := by
  have hr := (((((((Objects.Trace.nil (e := tapeEngine) ⟨none, fun _ => Req.new,
      fun _ => Trans.new, ⟨⟨[(sqliteOk, some 0)], [], [.ok (some 0) 9, .ok (some 1) 9,
        .ok (some 2) 6], [sqliteRow, sqliteRow, sqliteDone, sqliteDone], none⟩, []⟩⟩).snoc
      (.construct "m") 0 rfl).snoc (.req 0 (.append "SELECT 1;")) 0 rfl).snoc
      (.req 0 .execSelect) 2 rfl).snoc (.req 1 (.append "SELECT 2;")) 0 rfl).snoc
      (.req 1 .exec) 3 rfl).snoc (.trans 0 .begin) 3 rfl)
  obtain ⟨new, hlog, himp⟩ := rows_isolated tapeEngine hr
    (.of_empty (fun _ => rfl) (fun _ => rfl)) (fun _ => .inl (.of_cols rfl))
  have hnew : new = [.openDb "m" sqliteOk (some 0), .prepare (some 0) 0 10 (.ok (some 0) 9),
      .step 0 sqliteRow, .prepare (some 0) 0 10 (.ok (some 1) 9), .step 1 sqliteRow,
      .step 1 sqliteDone, .finalize 1, .prepare (some 0) 0 7 (.ok (some 2) 6),
      .step 2 sqliteDone, .finalize 2] := by
    rw [← List.nil_append new, ← hlog]
    rfl
  subst hnew
  have hiso := himp (by decide)
  exact ⟨_, hr, rfl, (hiso 0).2.resolve_right fun h => h.2.elim (fun hf => hf.1 rfl) (by decide),
    ((hiso 2).1 (by decide)).1⟩

end Sqld
