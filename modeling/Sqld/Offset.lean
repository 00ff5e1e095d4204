import Sqld.Conn
import Mathlib.Data.String.Basic

/-!
# `m_pos` Within the Text, and Text Streamed In After the End

The spec keeps a stream's offset at or before the end of its buffer "except on the terminal
'exhausted' state, where it may equal or exceed length", and `Req::prepare` notes that when
there are no more statements `m_pos` "will be larger than the sql string". How far `m_pos`
goes is sqlite's to say: it is advanced by `tail - head`. sqlite's `*pzTail` points at most
at the terminator of the text it compiles (`Engine.TailInText`). With such an engine every
call of a client keeps `m_pos ≤ |m_sql|`, whether it returns, raises or is cut off. When
`exec_select()` reports the end, or `exec()` returns, `m_pos` is `|m_sql|` exactly. Text a
client streams into `sql()` after that is compiled from its first byte: no byte of it is
skipped, and no statement before it runs again, since no call but `clear()` and `reset()`
moves `m_pos` back.

## Main definitions
- `Engine.TailInText`: a compile from a byte before the end consumes at most the bytes left.

## Main results
- `execSelectBody_inText`, `op_inText`: one pass of `exec_select`'s loop, and every call of a
  client, keep `m_pos ≤ |m_sql|`.
- `execSelect_end`, `exec_end`: where a call reports the stream used up, `|m_sql| ≤ m_pos`.
- `offset_in_text`: over any sequence of calls, `m_pos ≤ |m_sql|`, with equality once a call
  reports the end.
-/

namespace Sqld

variable {σ : Type} {e : Engine σ} {c : Conn}

variable (e) in
/-- sqlite's `*pzTail` stays in the text: a compile from a byte before the end consumes at
    most the bytes left, as sqlite stops at the terminator. -/
def Engine.TailInText : Prop :=
  ∀ s db sql pos n a used, pos < sql.utf8ByteSize →
    (e.prepare s db sql pos n).2 = .ok a used → pos + used ≤ sql.utf8ByteSize

theorem Engine.TailInText.compile (htail : e.TailInText) {w w' : World σ} {sql : String}
    {pos used : Nat} {a : Option Stmt} (hlt : pos < sql.utf8ByteSize)
    (hc : w.compile e c sql pos = (.ok a used, w')) : pos + used ≤ sql.utf8ByteSize :=
  htail _ _ _ _ _ _ _ hlt (congrArg Prod.fst hc)

theorem oneRowEngine_tailInText : oneRowEngine.TailInText := by
  intro _ _ sql pos _ _ _ _ h
  simp only [oneRowEngine, Prepared.ok.injEq] at h
  omega

@[simp] theorem Req.size_append (r : Req) (text : String) :
    (r.append text).size = r.size + text.utf8ByteSize := by
  obtain ⟨_, ⟨a⟩, _, _⟩ := r
  exact String.utf8Len_append a text.data

theorem Sends.size_eq {s t : Req × World σ} (h : Sends e c s t) : t.1.size = s.1.size :=
  congrArg String.utf8ByteSize h.1

/-! ## §1 Every call keeps `m_pos` in the text -/

section InText

variable (htail : e.TailInText)
include htail

/-- **One pass of `exec_select`'s loop** keeps `m_pos ≤ |m_sql|`: it moves `m_pos` only by
    what a compile from before the end consumed. -/
theorem execSelectBody_inText {s t : Req × World σ}
    (h : Req.execSelectBody e c s = .next t ∨
      ∃ o, Req.execSelectBody e c s = .exit o ∧ o.state = t)
    (hs : s.1.pos ≤ s.1.size) : t.1.pos ≤ t.1.size := by
  rw [(execSelectBody_sends h).size_eq]
  obtain ⟨r, w⟩ := s
  rw [Req.execSelectBody_eq] at h
  by_cases hend : r.size ≤ r.pos
  · simp only [if_pos hend, reduceCtorEq, false_or, Step.exit.injEq, exists_eq_left'] at h
    subst h
    exact hs
  simp only [if_neg hend] at h
  -- every state the pass leaves stands at `m_pos`, or past what the compile consumed
  rcases hc : (w.release e r.stmt).compile e c r.sql r.pos with ⟨⟨_ | st, used⟩ | code, w1⟩ <;>
    simp only [hc] at h <;> (try split_ifs at h) <;>
    simp only [reduceCtorEq, false_or, or_false, false_and, exists_false, Step.next.injEq,
      Step.exit.injEq, exists_eq_left', Outcome.state] at h <;>
    subst h <;> first | exact hs | exact htail.compile (Nat.not_le.1 hend) hc

theorem execSelect_inText (n : Nat) {r : Req} {w : World σ} (h : r.pos ≤ r.size) :
    (Req.execSelect e c n r w).state.1.pos ≤ (Req.execSelect e c n r w).state.1.size := by
  unfold Req.execSelect
  split
  · exact h
  · exact loop_invariant _ (fun t => t.1.pos ≤ t.1.size)
      (fun _ _ _ h hb => execSelectBody_inText htail (.inl hb) h)
      (fun _ _ _ h hb => execSelectBody_inText htail (.inr ⟨_, hb, rfl⟩) h) n (r, w) h

omit htail in
theorem drainLoop_inText (n : Nat) {s : Req × World σ} (h : s.1.pos ≤ s.1.size) :
    (loop (fun _ => Req.drainBody e) n s).state.1.pos ≤
      (loop (fun _ => Req.drainBody e) n s).state.1.size := by
  obtain ⟨hs, -, hpos⟩ := drainLoop_sends (c := ⟨none⟩) n s
  rw [hs.size_eq, hpos]
  exact h

theorem execBody_inText {n : Nat} {s t : Req × World σ}
    (h : Req.execBody e c n s = .next t ∨ ∃ o, Req.execBody e c n s = .exit o ∧ o.state = t)
    (hs : s.1.pos ≤ s.1.size) : t.1.pos ≤ t.1.size := by
  rcases execBody_state h with rfl | ⟨k, s1, hx, rfl⟩
  · exact execSelect_inText htail n hs
  · have h1 := execSelect_inText (c := c) htail n (w := s.2) hs
    rw [hx] at h1
    exact drainLoop_inText n h1

theorem exec_inText (n : Nat) {r : Req} {w : World σ} (h : r.pos ≤ r.size) :
    (Req.exec e c n r w).state.1.pos ≤ (Req.exec e c n r w).state.1.size := by
  unfold Req.exec
  split
  · exact h
  · exact loop_invariant _ (fun t => t.1.pos ≤ t.1.size)
      (fun _ _ _ h hb => execBody_inText htail (.inl hb) h)
      (fun _ _ _ h hb => execBody_inText htail (.inr ⟨_, hb, rfl⟩) h) n (r, w) h

/-- **Every call of a client keeps `m_pos ≤ |m_sql|`**, whether it returns, raises or is
    cut off: appending text only lengthens the text, and `clear()` and `reset()` rewind. -/
theorem op_inText (n : Nat) (op : Req.Op) {r : Req} {w : World σ} (h : r.pos ≤ r.size) :
    (Req.Op.run e c n op r w).state.1.pos ≤ (Req.Op.run e c n op r w).state.1.size := by
  cases op with
  | append text =>
    show r.pos ≤ (r.append text).size
    rw [Req.size_append]
    omega
  | clear => simp [Req.Op.run, Req.clear, Outcome.state]
  | reset => simp [Req.Op.run, Req.reset, Outcome.state]
  | execSelect => simpa [Req.Op.run] using execSelect_inText htail n h
  | nextRow =>
    obtain ⟨hs, -, hpos⟩ := nextRow_sends (c := c) r w
    show (Req.nextRow e r w).unit.state.1.pos ≤ (Req.nextRow e r w).unit.state.1.size
    rw [Outcome.state_unit, hs.size_eq, hpos]
    exact h
  | exec => exact exec_inText htail n h

theorem runOps_inText (ops : List (Nat × Req.Op)) {s : Req × World σ}
    (h : s.1.pos ≤ s.1.size) : (Req.runOps e c ops s).1.pos ≤ (Req.runOps e c ops s).1.size := by
  induction ops generalizing s with
  | nil => exact h
  | cons a ops ih =>
    obtain ⟨r, w⟩ := s
    exact ih (op_inText htail a.1 a.2 h)

end InText

/-! ## §2 Where a call reports the end -/

section End

variable (hcols : e.RowsHaveColumns) (hrest : e.NoSqlConsumesRest)
include hcols hrest

/-- An `exec_select()` that returns 0 has found the text used up, or only whitespace left,
    which sqlite consumes: `m_pos` is at or past the end. -/
theorem execSelect_end {n : Nat} {r : Req} {w : World σ} {u : Req × World σ}
    (h : Req.execSelect e c n r w = .ret 0 u) : u.1.size ≤ u.1.pos := by
  unfold Req.execSelect at h
  split at h
  · cases h
  generalize hz : (0 : Nat) = z at h
  obtain ⟨pos, w', -, hstop⟩ := Req.execSelectLoop_cases e c h trivial
  cases hstop with
  | atEnd hend => exact hend
  | noSql _ hc => exact hrest.le hc
  | row _ _ hs =>
    obtain ⟨k, hk⟩ := hcols.cols_succ hs
    omega

/-- An `exec()` that returns has found the text used up: `m_pos` is at or past the end. -/
theorem exec_end {n : Nat} {r : Req} {w : World σ} {u : Req × World σ}
    (h : Req.exec e c n r w = .ret () u) : u.1.size ≤ u.1.pos := by
  obtain ⟨r', w'⟩ := u
  unfold Req.exec at h
  split at h
  · cases h
  · next hr => exact (execLoop_sound hcols (not_not.1 hr) h trivial).2.2.2.2 hrest

end End

/-- **`m_pos` within the text, and text streamed in after the end.** With an engine whose
    `*pzTail` stays in the text, that consumes the rest when it finds no SQL, and whose rows
    have columns, as sqlite's: over any sequence of calls of a client on a `Req`, whatever
    each returns or raises, `m_pos ≤ |m_sql|`; and an `exec_select()` that then returns 0,
    or an `exec()` that then returns, leaves `m_pos = |m_sql|`, so text streamed into
    `sql()` next is compiled from its first byte. -/
theorem offset_in_text (htail : e.TailInText) (hrest : e.NoSqlConsumesRest)
    (hcols : e.RowsHaveColumns) (ops : List (Nat × Req.Op)) {s t : Req × World σ}
    (hs : s.1.pos ≤ s.1.size) (ht : Req.runOps e c ops s = t) :
    t.1.pos ≤ t.1.size ∧
      (∀ n u, Req.execSelect e c n t.1 t.2 = .ret 0 u → u.1.pos = u.1.size) ∧
      (∀ n u, Req.exec e c n t.1 t.2 = .ret () u → u.1.pos = u.1.size) := by
  subst ht
  have hin := runOps_inText (c := c) htail ops hs
  refine ⟨hin, fun n u h => ?_, fun n u h => ?_⟩
  · have hle := execSelect_inText (c := c) htail n (w := (Req.runOps e c ops s).2) hin
    rw [h] at hle
    exact Nat.le_antisymm hle (execSelect_end hcols hrest h)
  · have hle := exec_inText (c := c) htail n (w := (Req.runOps e c ops s).2) hin
    rw [h] at hle
    exact Nat.le_antisymm hle (exec_end hcols hrest h)

/-- `SELECT 1;` runs to the end, which leaves `m_pos` at byte 9; `SELECT 2;` streamed in
    next starts there, and the next `exec()` that returns ends at the end of both. -/
theorem offset_in_text_appended :
    ∃ t, Req.runOps oneRowEngine ⟨some 0⟩
        [(0, .append "SELECT 1;"), (2, .exec), (0, .append "SELECT 2;")] (Req.new, ⟨[], []⟩) = t ∧
      t.1.pos = 9 ∧ t.1.pos ≤ t.1.size ∧
      ∀ n u, Req.exec oneRowEngine ⟨some 0⟩ n t.1 t.2 = .ret () u → u.1.pos = u.1.size := by
  obtain ⟨hin, -, hexec⟩ := offset_in_text oneRowEngine_tailInText
    oneRowEngine_noSqlConsumesRest oneRowEngine_rowsHaveColumns
    [(0, .append "SELECT 1;"), (2, .exec), (0, .append "SELECT 2;")]
    (s := (Req.new, ⟨[], []⟩)) (Nat.zero_le _) rfl
  exact ⟨_, rfl, rfl, hin, hexec⟩

end Sqld
