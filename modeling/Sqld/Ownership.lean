import Sqld.Conn

/-!
# Statement Handles Across the Objects on One Connection

One `Req` compiles only while it holds no statement, and steps and finalizes only the
statement it holds (`Disciplined`). A program has any number of `Req` objects
on one connection, and each call of a `Trans` makes a short-lived `Req` of its own; their
calls interleave in any order. This module follows every statement handle through such a
run.

A handle is *live* after a log of calls when the last compile that handed it out has not
been followed by its finalize (`live`). sqlite never hands out a handle that is live: the
handle is the address of a statement object it has not freed. That is the one assumption,
stated on the run's own log (`FreshFrom`); the rest is the wrapper's doing.

## Main definitions
- `Call.compiled`, `Call.used`, `Call.finalized`: the handle a call hands out, the one a
  step or a finalize is on, the one a finalize is on.
- `live`: whether a handle is live after a log.
- `FreshFrom`, `SafeFrom`: every compile hands out a handle not live then; every step and
  finalize is on a handle live then.
- `Tracks`: the live handles while one `Req` makes its calls.
- `Objects.Owned`: the live handles are exactly those the `Req` objects hold, each by one.
- `HeldStep`: what one call of the program does to the statements the `Req` objects hold.

## Main results
- `Tracks.trackAll`: the disciplined calls of one `Req` step and finalize only live
  handles, and change the live handles only by the one the `Req` held and the one it holds.
- `ObjOp.run_held`: every call of the program is a `HeldStep`.
- `Objects.Owned.step`, `Objects.Trace.owned`: one call, and so every run, keeps
  `Objects.Owned` and steps and finalizes only live handles.
- `stmt_handles_owned`: over any run, no statement handle is used after its finalize or
  finalized twice, and each is finalized as often as it was handed out, but for those the
  `Req` objects hold at the end.
-/

namespace Sqld

/-! ## §1 Live handles -/

namespace Call

/-- The statement a compile hands out. -/
def compiled : Call → Option Stmt
  | .prepare _ _ _ (.ok st _) => st
  | _ => none

/-- The statement a step or a finalize is on. -/
def used : Call → Option Stmt
  | .step st _ => some st
  | .finalize st => some st
  | _ => none

/-- The statement a finalize is on. -/
def finalized : Call → Option Stmt
  | .finalize st => some st
  | _ => none

/-- Whether `st` is live after the call `x`, from whether it was live before: a compile that
    hands it out makes it live, its finalize ends it. -/
def keepsLive (st : Stmt) (b : Bool) (x : Call) : Bool :=
  (b && x.finalized != some st) || x.compiled == some st

theorem used_of_finalized {x : Call} {st : Stmt} (h : x.finalized = some st) :
    x.used = some st := by
  cases x <;> simp_all [finalized, used]

theorem finalized_of_compiled {x : Call} {st : Stmt} (h : x.compiled = some st) :
    x.finalized = none := by
  cases x <;> simp_all [finalized, compiled]

end Call

/-- Whether `st` is live after the calls `log`. -/
def live (st : Stmt) (log : List Call) : Bool := log.foldl (Call.keepsLive st) false

@[simp] theorem live_nil (st : Stmt) : live st [] = false := rfl

@[simp] theorem live_append_singleton (st : Stmt) (log : List Call) (x : Call) :
    live st (log ++ [x]) = Call.keepsLive st (live st log) x := by
  simp [live]

/-- Every compile of `calls`, made after `pre`, hands out a handle that is not live then. -/
def FreshFrom (pre : List Call) : List Call → Bool
  | [] => true
  | x :: xs => (x.compiled.all fun st => !live st pre) && FreshFrom (pre ++ [x]) xs

/-- Every step and finalize of `calls`, made after `pre`, is on a handle live then: none is
    on a handle already finalized. -/
def SafeFrom (pre : List Call) : List Call → Bool
  | [] => true
  | x :: xs => (x.used.all fun st => live st pre) && SafeFrom (pre ++ [x]) xs

theorem freshFrom_append (pre xs ys : List Call) :
    FreshFrom pre (xs ++ ys) = (FreshFrom pre xs && FreshFrom (pre ++ xs) ys) := by
  induction xs generalizing pre with
  | nil => simp [FreshFrom]
  | cons x xs ih => simp [FreshFrom, ih, Bool.and_assoc]

theorem safeFrom_append (pre xs ys : List Call) :
    SafeFrom pre (xs ++ ys) = (SafeFrom pre xs && SafeFrom (pre ++ xs) ys) := by
  induction xs generalizing pre with
  | nil => simp [SafeFrom]
  | cons x xs ih => simp [SafeFrom, ih, Bool.and_assoc]

/-- One call, handing out no live handle and using no dead one, hands out `st` exactly when
    it makes it live and finalizes it exactly when it makes it dead. -/
theorem keepsLive_toNat {pre : List Call} {x : Call} (st : Stmt)
    (hf : (x.compiled.all fun st => !live st pre) = true)
    (hs : (x.used.all fun st => live st pre) = true) :
    (if x.compiled == some st then 1 else 0) + (live st pre).toNat =
      (if x.finalized == some st then 1 else 0) + (live st (pre ++ [x])).toNat := by
  rw [live_append_singleton, Call.keepsLive]
  cases hc : (x.compiled == some st)
  · cases hd : (x.finalized == some st)
    · cases live st pre <;> simp [bne, hd]
    · have hlive : live st pre = true := by
        simpa [Call.used_of_finalized (beq_iff_eq.1 hd)] using hs
      simp [bne, hd, hlive]
  · have hc' := beq_iff_eq.1 hc
    have hdead : live st pre = false := by simpa [hc'] using hf
    simp [bne, Call.finalized_of_compiled hc', hdead]

/-- Calls that hand out no handle and step or finalize none, as opens and closes, leave the
    live handles as they are. -/
theorem live_of_onConn {calls : List Call}
    (hc : ∀ x ∈ calls, x.compiled = none ∧ x.used = none) (pre : List Call) :
    (∀ st, live st (pre ++ calls) = live st pre) ∧ SafeFrom pre calls = true := by
  induction calls generalizing pre with
  | nil => simp [SafeFrom]
  | cons x xs ih =>
    obtain ⟨hx, hu⟩ := hc x (List.mem_cons_self x xs)
    have hfin : x.finalized = none := by
      rcases hf : x.finalized with _ | st
      · rfl
      · simp [Call.used_of_finalized hf] at hu
    have h1 : ∀ st, live st (pre ++ [x]) = live st pre := fun st => by
      simp [Call.keepsLive, hx, hfin]
    obtain ⟨h2, h3⟩ := ih (fun y hy => hc y (List.mem_cons_of_mem x hy)) (pre ++ [x])
    refine ⟨fun st => ?_, by simp [SafeFrom, hu, h3]⟩
    rw [← List.singleton_append, ← List.append_assoc, h2, h1]

/-- Where no compile hands out a live handle and no step or finalize is on a dead one, a
    handle's compiles and finalizes alternate: it is handed out as often as it is finalized,
    counting whether it was live before and is live after. -/
theorem countP_compiled_eq {pre calls : List Call} (hf : FreshFrom pre calls = true)
    (hs : SafeFrom pre calls = true) (st : Stmt) :
    calls.countP (fun x => x.compiled == some st) + (live st pre).toNat =
      calls.countP (fun x => x.finalized == some st) + (live st (pre ++ calls)).toNat := by
  induction calls generalizing pre with
  | nil => simp
  | cons x xs ih =>
    simp only [FreshFrom, SafeFrom, Bool.and_eq_true] at hf hs
    have key := ih hf.2 hs.2
    have one := keepsLive_toNat st hf.1 hs.1
    rw [List.append_assoc, List.singleton_append] at key
    rw [List.countP_cons, List.countP_cons]
    omega

/-! ## §2 The calls of one `Req` -/

/-- What one disciplined call can be: a compile while nothing is held, whose handle is then
    held; or a step or a finalize of the statement held, which a finalize releases. -/
theorem Call.track_cases {x x' : Option Stmt} {c : Call} (h : Call.track x c = some x') :
    (x = none ∧ c.used = none ∧ c.finalized = none ∧ x' = c.compiled) ∨
    (∃ st, x = some st ∧ c.used = some st ∧ c.compiled = none ∧
      ((c.finalized = none ∧ x' = some st) ∨ (c.finalized = some st ∧ x' = none))) := by
  rcases x with _ | st <;> cases c <;> simp only [Call.track, reduceCtorEq] at h
  case none.prepare a => cases a <;> simp_all [Call.used, Call.finalized, Call.compiled]
  all_goals
    split_ifs at h with heq
    cases h
    subst heq
    simp [Call.used, Call.finalized, Call.compiled]

/-- The live handles while one `Req` makes its calls from the log `L0`, where it held `h`,
    to the log `L`, where it holds `x`: those live at `L0` but `h`, and `x`; and `x` is `h`
    or was not live at `L0`. -/
structure Tracks (L0 : List Call) (h : Option Stmt) (L : List Call) (x : Option Stmt) :
    Prop where
  live_iff : ∀ st, live st L = true ↔ (live st L0 = true ∧ h ≠ some st) ∨ x = some st
  held : ∀ st, x = some st → h = some st ∨ live st L0 = false

section Tracks

variable {L0 L : List Call} {h x : Option Stmt}

theorem Tracks.init (hh : ∀ st, h = some st → live st L0 = true) : Tracks L0 h L0 h where
  live_iff st := ⟨fun hl => (em (h = some st)).elim .inr fun hs => .inl ⟨hl, hs⟩,
    fun hx => hx.elim And.left (hh st)⟩
  held _ hs := .inl hs

/-- **One disciplined call** keeps `Tracks`, and a step or a finalize is on a live handle,
    where a compile hands out a handle not live. -/
theorem Tracks.step (hI : Tracks L0 h L x) {c : Call} {x' : Option Stmt}
    (ht : Call.track x c = some x') (hf : (c.compiled.all fun st => !live st L) = true) :
    Tracks L0 h (L ++ [c]) x' ∧ (c.used.all fun st => live st L) = true := by
  rcases Call.track_cases ht with ⟨rfl, hu, hfin, rfl⟩ | ⟨st, rfl, hu, hc, hx'⟩
  · refine ⟨⟨fun s => ?_, fun s hs => ?_⟩, by simp [hu]⟩
    · simp [Call.keepsLive, hfin, hI.live_iff s]
    · have hl : live s L = false := by simpa [hs] using hf
      have := hI.live_iff s
      by_cases h1 : h = some s
      · exact .inl h1
      · exact .inr (by simp_all)
  · have hlive : live st L = true := (hI.live_iff st).2 (.inr rfl)
    refine ⟨?_, by simp [hu, hlive]⟩
    rcases hx' with ⟨hfin, rfl⟩ | ⟨hfin, rfl⟩
    · refine ⟨fun s => ?_, hI.held⟩
      simp [Call.keepsLive, hfin, hc, hI.live_iff s]
    · refine ⟨fun s => ?_, fun _ hs => by cases hs⟩
      rw [live_append_singleton, Call.keepsLive, hfin, hc]
      by_cases hs : s = st
      · subst hs
        rcases hI.held s rfl with hh | hh <;> simp [hh]
      · simp [hI.live_iff s, Ne.symm hs]

/-- **The calls of one `Req`**: a run of disciplined calls keeps `Tracks` and steps and
    finalizes only live handles, where no compile hands out a live one. -/
theorem Tracks.trackAll (hI : Tracks L0 h L x) {calls : List Call} {x' : Option Stmt}
    (ht : Call.trackAll x calls = some x') (hf : FreshFrom L calls = true) :
    Tracks L0 h (L ++ calls) x' ∧ SafeFrom L calls = true := by
  induction calls generalizing L x with
  | nil =>
    cases ht
    simpa [SafeFrom] using hI
  | cons c calls ih =>
    simp only [Call.trackAll, List.foldlM_cons] at ht
    obtain ⟨x1, h1, h2⟩ := Option.bind_eq_some.1 ht
    simp only [FreshFrom, Bool.and_eq_true] at hf
    obtain ⟨hI1, hu⟩ := hI.step h1 hf.1
    obtain ⟨hI2, hs⟩ := ih hI1 h2 hf.2
    rw [← List.singleton_append, ← List.append_assoc]
    exact ⟨hI2, by simp [SafeFrom, hu, hs]⟩

end Tracks

/-! ## §3 The objects on one connection -/

/-- The statement handles of a program's objects: every handle a `Req` holds is live, every
    live handle is held by a `Req`, and by one only. -/
structure Objects.Owned {σ : Type} (s : Objects σ) : Prop where
  held_live : ∀ j st, (s.reqs j).stmt = some st → live st s.world.log = true
  live_held : ∀ st, live st s.world.log = true → ∃ j, (s.reqs j).stmt = some st
  unique : ∀ j k st, (s.reqs j).stmt = some st → (s.reqs k).stmt = some st → j = k

/-- What the call `op` of the `Req` at `j` makes of it and of the world: one of its members,
    with any fuel, on the connection; or its destructor, after which its index holds a new
    `Req`. -/
inductive Req.Acts {σ : Type} (e : Engine σ) (j : Nat) :
    ObjOp → Req × World σ → Req × World σ → Prop
  | op (c : Conn) (n : Nat) (op : Req.Op) (r : Req) (w : World σ) :
      Req.Acts e j (.req j op) (r, w) (Req.Op.run e c n op r w).state
  | drop (r : Req) (w : World σ) : Req.Acts e j (.dropReq j) (r, w) (Req.new, Req.destroy e r w)

theorem Req.Acts.onReq {σ : Type} {e : Engine σ} {j : Nat} {op : ObjOp} {a b : Req × World σ}
    (h : Req.Acts e j op a b) : op.OnReq j := by
  cases h <;> rfl

/-- What the call `op` of the program does to the statements the `Req` objects hold, against
    the engine calls it made: a call of the `Req` at `j`, in its discipline; one of a `Trans`,
    whose short-lived `Req` starts and ends holding nothing; or opens and closes. -/
inductive HeldStep {σ : Type} (e : Engine σ) (op : ObjOp) (s t : Objects σ) (calls : List Call) :
    Prop where
  | slot (j : Nat) (hk : ∀ k ≠ j, t.reqs k = s.reqs k)
      (ht : Call.trackAll (s.reqs j).stmt calls = some (t.reqs j).stmt)
      (hact : Req.Acts e j op (s.reqs j, s.world) (t.reqs j, t.world))
  | quiet (hr : t.reqs = s.reqs) (ht : Call.trackAll none calls = some none)
  | conn (hr : t.reqs = s.reqs) (hc : ∀ x ∈ calls, x.compiled = none ∧ x.used = none)

section Objects

variable {σ : Type} {e : Engine σ} {s t : Objects σ}

theorem Outcome.finished_of_final_map {S α β : Type} {o : Outcome S α} {f : S → β} {u : β}
    (h : o.final.map f = some u) : o.Finished := by
  cases o <;> simp_all [Outcome.final]

/-- The calls `Conn::reopen` makes: the close of the handle held, if any, and the open. -/
theorem reopen_log (uri : String) (c : Conn) (w : World σ) :
    ∃ calls, (Conn.reopen e uri c w).state.2.log = w.log ++ calls ∧
      ∀ x ∈ calls, x.compiled = none ∧ x.used = none := by
  refine ⟨c.db.toList.map (fun d => .closeDb d (w.closeDb e d).1) ++
    [.openDb uri ((Conn.close e c w).2.openDb e uri).1.1 ((Conn.close e c w).2.openDb e uri).1.2],
    ?_, ?_⟩
  · simp [Conn.reopen, (Conn.attach_spec uri _).1, (Conn.close_spec c w).2]
  · intro x hx
    simp only [List.mem_append, List.mem_map, Option.mem_toList, List.mem_singleton] at hx
    rcases hx with ⟨_, _, rfl⟩ | rfl <;> exact ⟨rfl, rfl⟩

/-- **What one call does to the statements held.** Every call of the program is a
    `HeldStep`. -/
theorem ObjOp.run_held {fuel : Nat} {op : ObjOp} (h : ObjOp.run e fuel s op = some t) :
    ∃ calls, t.world.log = s.world.log ++ calls ∧ HeldStep e op s t calls := by
  cases op with
  | construct uri =>
    simp only [ObjOp.run, Conn.construct] at h
    rcases hc : s.conn with _ | c <;>
      rcases ho : Conn.attach e uri s.world with ⟨⟨⟩, c', w⟩ | ⟨x, c', w⟩ | _ <;>
      simp only [hc, ho, Option.some.injEq, reduceCtorEq] at h <;> subst h <;>
      have hw := congrArg (·.2) ((Conn.attach_spec (e := e) uri s.world).1) <;>
      simp only [ho, Outcome.state] at hw <;> subst hw <;>
      exact ⟨_, World.openDb_log .., .conn rfl (by simp [Call.compiled, Call.used])⟩
  | reopen uri =>
    simp only [ObjOp.run] at h
    rcases hc : s.conn with _ | c <;> simp only [hc, Option.none_bind, Option.some_bind,
      reduceCtorEq] at h
    obtain rfl := Outcome.final_map h
    obtain ⟨calls, hlog, hx⟩ := reopen_log (e := e) uri c s.world
    exact ⟨calls, hlog, .conn rfl hx⟩
  | destroy =>
    simp only [ObjOp.run] at h
    rcases hc : s.conn with _ | c <;> simp only [hc, Option.map_none', Option.map_some',
      Option.some.injEq, reduceCtorEq] at h
    subst h
    refine ⟨_, (Conn.close_spec c s.world).2, .conn rfl ?_⟩
    simp only [List.mem_map, Option.mem_toList]
    rintro _ ⟨_, _, rfl⟩
    exact ⟨rfl, rfl⟩
  | req j op =>
    simp only [ObjOp.run] at h
    rcases hc : s.conn with _ | c <;> simp only [hc, Option.none_bind, Option.some_bind,
      reduceCtorEq] at h
    obtain rfl := Outcome.final_map h
    obtain ⟨calls, hlog, ht⟩ := op_disciplined (e := e) (c := c) fuel op (s.reqs j) s.world
    exact ⟨calls, hlog, .slot j (fun k hk => Function.update_noteq hk _ _) (by simpa using ht)
      (by simp only [Function.update_same]; exact .op c fuel op _ _)⟩
  | dropReq j =>
    simp only [ObjOp.run] at h
    rcases hc : s.conn with _ | c <;> simp only [hc, Option.map_none', Option.map_some',
      Option.some.injEq, reduceCtorEq] at h
    subst h
    obtain ⟨calls, hlog, ht⟩ := disciplined_release (e := e) (s.reqs j) Req.new s.world rfl
    exact ⟨calls, by simpa [Req.destroy] using hlog,
      .slot j (fun k hk => Function.update_noteq hk _ _) (by simpa using ht)
        (by simp only [Function.update_same]; exact .drop _ _)⟩
  | trans i op =>
    simp only [ObjOp.run] at h
    rcases hc : s.conn with _ | c <;> simp only [hc, Option.none_bind, Option.some_bind,
      reduceCtorEq] at h
    have hfin := Outcome.finished_of_final_map h
    obtain rfl := Outcome.final_map h
    cases op <;>
      obtain ⟨calls, hlog, ht⟩ := command_disciplined (e := e) (c := c) _ _ _ _ _ _ _ hfin <;>
      exact ⟨calls, hlog, .quiet rfl ht⟩
  | dropTrans i =>
    simp only [ObjOp.run] at h
    rcases hc : s.conn with _ | c <;> simp only [hc, Option.none_bind, Option.some_bind,
      reduceCtorEq] at h
    have hfin := Outcome.finished_of_final_map h
    obtain rfl := Outcome.final_map h
    unfold Trans.destroy at hfin ⊢
    by_cases hact : (s.trans i).active = true
    · rw [if_pos hact] at hfin ⊢
      obtain ⟨calls, hlog, ht⟩ := command_disciplined (e := e) (c := c) _ _ _ _ _ _ _ hfin
      exact ⟨calls, hlog, .quiet rfl ht⟩
    · rw [if_neg hact]
      exact ⟨[], by simp [Outcome.state], .quiet rfl rfl⟩

namespace Objects.Owned

/-- A call of the `Req` at `j` keeps `Owned`: the handle it held, if it still holds it, and
    the one it holds now are held by no other `Req`. -/
theorem slot (hs : s.Owned) {j : Nat} {calls : List Call} (hk : ∀ k ≠ j, t.reqs k = s.reqs k)
    (hlog : t.world.log = s.world.log ++ calls)
    (ht : Call.trackAll (s.reqs j).stmt calls = some (t.reqs j).stmt)
    (hf : FreshFrom s.world.log calls = true) :
    SafeFrom s.world.log calls = true ∧ t.Owned := by
  obtain ⟨hT, hsafe⟩ := (Tracks.init (hs.held_live j)).trackAll ht hf
  rw [← hlog] at hT
  have other : ∀ k st, k ≠ j → (s.reqs k).stmt = some st →
      live st s.world.log = true ∧ (s.reqs j).stmt ≠ some st := fun k st hkj hst =>
    ⟨hs.held_live k st hst, fun hj => hkj (hs.unique k j st hst hj)⟩
  refine ⟨hsafe, ⟨fun k st hst => ?_, fun st hl => ?_, fun k k' st h1 h2 => ?_⟩⟩
  · rcases eq_or_ne k j with rfl | hkj
    · exact (hT.live_iff st).2 (.inr hst)
    · exact (hT.live_iff st).2 (.inl (other k st hkj (hk k hkj ▸ hst)))
  · rcases (hT.live_iff st).1 hl with ⟨hl0, hne⟩ | hj
    · obtain ⟨k, hks⟩ := hs.live_held st hl0
      have hkj : k ≠ j := fun h => hne (h ▸ hks)
      exact ⟨k, by rw [hk k hkj]; exact hks⟩
    · exact ⟨j, hj⟩
  · have fresh : ∀ k, k ≠ j → (t.reqs j).stmt = some st → (t.reqs k).stmt = some st → False :=
      fun k hkj hj hk' => by
        obtain ⟨hl0, hne⟩ := other k st hkj (hk k hkj ▸ hk')
        rcases hT.held st hj with h | h
        · exact hne h
        · simp_all
    rcases eq_or_ne k j with rfl | hkj <;> rcases eq_or_ne k' k with rfl | hk'k
    · rfl
    · exact (fresh k' hk'k h1 h2).elim
    · rfl
    · rcases eq_or_ne k' j with rfl | hk'j
      · exact (fresh k hkj h2 h1).elim
      · exact hs.unique k k' st (hk k hkj ▸ h1) (hk k' hk'j ▸ h2)

/-- A call that leaves every `Req` as it was, and whose calls start and end holding nothing,
    keeps `Owned`. -/
theorem quiet (hs : s.Owned) {calls : List Call} (hr : t.reqs = s.reqs)
    (hlog : t.world.log = s.world.log ++ calls) (ht : Call.trackAll none calls = some none)
    (hf : FreshFrom s.world.log calls = true) :
    SafeFrom s.world.log calls = true ∧ t.Owned := by
  have h0 : Tracks s.world.log none s.world.log none := .init (by simp)
  obtain ⟨hT, hsafe⟩ := h0.trackAll ht hf
  have hl : ∀ st, live st t.world.log = live st s.world.log := fun st => by
    rw [hlog, Bool.eq_iff_iff, hT.live_iff st]
    simp
  exact ⟨hsafe, ⟨fun j st h => hl st ▸ hs.held_live j st (hr ▸ h),
    fun st h => hr ▸ hs.live_held st (hl st ▸ h), fun j k st => hr ▸ hs.unique j k st⟩⟩

/-- Opens and closes keep `Owned`. -/
theorem conn (hs : s.Owned) {calls : List Call} (hr : t.reqs = s.reqs)
    (hlog : t.world.log = s.world.log ++ calls)
    (hc : ∀ x ∈ calls, x.compiled = none ∧ x.used = none) :
    SafeFrom s.world.log calls = true ∧ t.Owned := by
  obtain ⟨hl, hsafe⟩ := live_of_onConn hc s.world.log
  rw [← hlog] at hl
  exact ⟨hsafe, ⟨fun j st h => hl st ▸ hs.held_live j st (hr ▸ h),
    fun st h => hr ▸ hs.live_held st (hl st ▸ h), fun j k st => hr ▸ hs.unique j k st⟩⟩

/-- **One call keeps `Owned`**, and steps and finalizes only live handles, where sqlite
    hands out no live handle. -/
theorem step (hs : s.Owned) {op : ObjOp} {calls : List Call} (hst : HeldStep e op s t calls)
    (hlog : t.world.log = s.world.log ++ calls) (hf : FreshFrom s.world.log calls = true) :
    SafeFrom s.world.log calls = true ∧ t.Owned := by
  cases hst with
  | slot j hk ht _ => exact hs.slot hk hlog ht hf
  | quiet hr ht => exact hs.quiet hr hlog ht hf
  | conn hr hc => exact hs.conn hr hlog hc

end Objects.Owned

/-- **Every run keeps `Owned`**, and with it any property `P` of the calls made so far and
    the objects that one call keeps on owned objects, and steps and finalizes only live
    handles, where sqlite hands out no live handle. -/
theorem Objects.Trace.owned {P : List ObjOp → Objects σ → Prop}
    (hP : ∀ {ops : List ObjOp} {op : ObjOp} {s t : Objects σ} {calls : List Call},
      HeldStep e op s t calls → s.Owned → t.world.log = s.world.log ++ calls →
      FreshFrom s.world.log calls = true → P ops s → P (ops ++ [op]) t)
    {ops : List ObjOp} (h : Objects.Trace e ops s t) (hs : s.Owned) (hp : P [] s) :
    ∃ new, t.world.log = s.world.log ++ new ∧
      (FreshFrom s.world.log new = true → SafeFrom s.world.log new = true ∧ t.Owned ∧
        P ops t) := by
  induction h with
  | nil => exact ⟨[], by simp, fun _ => ⟨rfl, hs, hp⟩⟩
  | snoc op fuel _ hrun ih =>
    obtain ⟨new, hlog, himp⟩ := ih hs hp
    obtain ⟨calls, hlog', hheld⟩ := ObjOp.run_held hrun
    refine ⟨new ++ calls, by rw [hlog', hlog, List.append_assoc], fun hf => ?_⟩
    rw [freshFrom_append, Bool.and_eq_true, ← hlog] at hf
    obtain ⟨hsafe, hu, hpu⟩ := himp hf.1
    obtain ⟨hsafe', ht⟩ := hu.step hheld hlog' hf.2
    rw [safeFrom_append, ← hlog, hsafe, hsafe']
    exact ⟨rfl, ht, hP hheld hu hlog' hf.2 hpu⟩

/-- Objects whose `Req`s hold nothing, on a log with no live handle, are `Owned`. -/
theorem Objects.Owned.of_empty (hr : ∀ j, (s.reqs j).stmt = none)
    (hl : ∀ st, live st s.world.log = false) : s.Owned where
  held_live j st h := by simp [hr j] at h
  live_held st h := by simp [hl st] at h
  unique j _ st h := by simp [hr j] at h

end Objects

/-- **Statement handles across the objects on one connection.** Over any run of calls on a
    `Conn` and on any number of `Req` and `Trans` objects, in any order, however each call
    ends, from objects whose live statement handles are the ones their `Req`s hold: where
    sqlite hands out no handle that is still live, no statement is stepped or finalized
    after its finalize; at the end every live handle is held by exactly one `Req`; and each
    handle is finalized as often as a compile handed it out, counting whether it was live at
    the start and is live at the end. -/
theorem stmt_handles_owned {σ : Type} (e : Engine σ) {s t : Objects σ} (h : Objects.Runs e s t)
    (hs : s.Owned) :
    ∃ new, t.world.log = s.world.log ++ new ∧
      (FreshFrom s.world.log new = true →
        SafeFrom s.world.log new = true ∧ t.Owned ∧
        ∀ st, new.countP (fun x => x.compiled == some st) + (live st s.world.log).toNat =
          new.countP (fun x => x.finalized == some st) + (live st t.world.log).toNat) := by
  obtain ⟨ops, h⟩ := (Objects.runs_iff_trace e).1 h
  obtain ⟨new, hlog, himp⟩ := h.owned (P := fun _ _ => True) (fun _ _ _ _ _ => trivial) hs trivial
  refine ⟨new, hlog, fun hf => ?_⟩
  obtain ⟨hsafe, ht, -⟩ := himp hf
  exact ⟨hsafe, ht, fun st => hlog ▸ countP_compiled_eq hf hsafe st⟩

/-- On one connection, `Req` 0 runs `SELECT 1;` and keeps its statement on a row while
    `Req` 1 runs `SELECT 2;` to the end and a `Trans` begins; then `Req` 0 is destroyed. sqlite
    hands out handles 0, 1 and 2, and every step and finalize is on a live one. -/
theorem stmt_handles_owned_interleaved :
    ∃ t, Objects.Runs tapeEngine ⟨none, fun _ => Req.new, fun _ => Trans.new,
        ⟨⟨[(sqliteOk, some 0)], [], [.ok (some 0) 9, .ok (some 1) 9, .ok (some 2) 6],
          [sqliteRow, sqliteRow, sqliteDone, sqliteDone], none⟩, []⟩⟩ t ∧
      SafeFrom [] t.world.log = true ∧ t.Owned := by
  have hr : Objects.Runs tapeEngine ⟨none, fun _ => Req.new, fun _ => Trans.new,
      ⟨⟨[(sqliteOk, some 0)], [], [.ok (some 0) 9, .ok (some 1) 9, .ok (some 2) 6],
        [sqliteRow, sqliteRow, sqliteDone, sqliteDone], none⟩, []⟩⟩ _ :=
    .tail (.tail (.tail (.tail (.tail (.tail (.single ⟨.construct "m", 0, rfl⟩)
      ⟨.req 0 (.append "SELECT 1;"), 0, rfl⟩) ⟨.req 0 .execSelect, 2, rfl⟩)
      ⟨.req 1 (.append "SELECT 2;"), 0, rfl⟩) ⟨.req 1 .exec, 3, rfl⟩)
      ⟨.trans 0 .begin, 3, rfl⟩) ⟨.dropReq 0, 0, rfl⟩
  obtain ⟨new, hlog, himp⟩ :=
    stmt_handles_owned tapeEngine hr (.of_empty (fun _ => rfl) (fun _ => rfl))
  have hnew : new = [.openDb "m" sqliteOk (some 0), .prepare (some 0) 0 10 (.ok (some 0) 9),
      .step 0 sqliteRow, .prepare (some 0) 0 10 (.ok (some 1) 9), .step 1 sqliteRow,
      .step 1 sqliteDone, .finalize 1, .prepare (some 0) 0 7 (.ok (some 2) 6),
      .step 2 sqliteDone, .finalize 2, .finalize 0] := by
    rw [← List.nil_append new, ← hlog]
    rfl
  subst hnew
  obtain ⟨hsafe, ht, -⟩ := himp (by decide)
  exact ⟨_, hr, by rw [hlog]; exact hsafe, ht⟩

end Sqld
