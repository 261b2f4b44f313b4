import Mathlib.Logic.Function.Iterate
import PayloadSchema.Proofs.Compile.Calls

/-!
# The moments of a call

A call goes through moments: a reference is asked for, an expansion is opened, its parts are asked for, the
key of a map is looked at hop by hop, the expansion is closed, an answer is given back. The open expansions
are a stack of frames, the innermost first. Nothing bounds the steps from moment to moment but what the
guards and the look at a key do themselves.

* `moment_returns` — the steps come to an end, with the answer of the call;
* `bounded_moment` — at every moment the open expansions are counted by the depth, and each was opened
  below the depth limit;
* `compile_terminates` — both for every call from outside, and that more levels change nothing.
-/

namespace PayloadSchema

namespace Compile

open Descriptor (keyHops isTextKeyWithin)

variable {ρ : Type}

/-! ## Moments and steps -/

/-- An expansion: what is expanded, and the context outside. -/
structure Expansion (ρ : Type) where
  descriptor : Descriptor (TypeRef ρ)
  outer : Context

/-- An expansion that is open, with the answers so far and the parts that are still to be asked for. -/
structure Frame (ρ : Type) where
  expansion : Expansion ρ
  answers : List Schema
  pending : List (TypeRef ρ)

/-- What happens next. -/
inductive Focus (ρ : Type) where
  /-- The schema of a reference is asked for. -/
  | ask (t : TypeRef ρ)
  /-- The innermost expansion goes on. -/
  | resume
  /-- The key of a map is looked at, after descriptors with these identities. -/
  | key (d : Descriptor (TypeRef ρ)) (seen : List String)
  /-- The innermost expansion ends; whether its key is a text is known. -/
  | close (isKey : Bool)
  /-- A schema is given to whoever asked for it. -/
  | answer (s : Schema)

/-- A moment of a call. -/
structure Moment (ρ : Type) where
  focus : Focus ρ
  frames : List (Frame ρ)
  session : Session ρ

/-- The open expansions, the innermost first. -/
def Moment.expansions (m : Moment ρ) : List (Expansion ρ) := m.frames.map (·.expansion)

/-- The identities whose expansion is open, the innermost first. -/
def Moment.opened (m : Moment ρ) : List String := m.expansions.map (·.descriptor.identity)

/-- One hop of the look at a key. -/
def hop (env : Environment ρ) (d : Descriptor (TypeRef ρ)) (seen : List String) : Focus ρ × List ρ :=
  if d.identity ∈ seen then (.close false, [])
  else if keyHops ≤ seen.length then (.close false, [])
  else
    match d.shape with
    | .scalar .text => (.close true, [])
    | .scalar .character => (.close true, [])
    | .scalar .uuid => (.close true, [])
    | .enumeration variants => (.close (variants.all (·.payload.isNone)), [])
    | .pointer target _ => (.key (target.load env) (d.identity :: seen), target.loads)
    | _ => (.close false, [])

/-- How an expansion goes on: with the next part, or with the key of a map, or with its end. -/
def Frame.resume (env : Environment ρ) (frame : Frame ρ) : Focus ρ × Frame ρ × List ρ :=
  match frame.pending, frame.expansion.descriptor.shape with
  | t :: ts, _ => (.ask t, { frame with pending := ts }, [])
  | [], .map key _ => (.key (key.load env) [], frame, key.loads)
  | [], _ => (.close true, frame, [])

/-- The schema of an expansion that ends. -/
def Frame.schema (policy : RequiredPolicy) (isKey : Bool) (frame : Frame ρ) : Schema :=
  describe (assemble policy isKey frame.expansion.descriptor.shape frame.answers)
    frame.expansion.descriptor.description

/-- The session with more loads. -/
def note (loads : List ρ) (session : Session ρ) : Session ρ :=
  { session with loads := loads ++ session.loads }

/-- The next moment. An answer that nobody waits for is the last moment. -/
def step (env : Environment ρ) (policy : RequiredPolicy) : Moment ρ → Moment ρ
  | ⟨.ask t, frames, session⟩ =>
    match guard? policy t.identity session with
    | some (s, session) => ⟨.answer s, frames, session⟩
    | none =>
      ⟨.resume, ⟨⟨t.load env, session.context⟩, [], (t.load env).shape.parts⟩ :: frames,
        enterRef env t session⟩
  | ⟨.resume, frame :: frames, session⟩ =>
    let (focus, frame, loads) := frame.resume env
    ⟨focus, frame :: frames, note loads session⟩
  | ⟨.key d seen, frames, session⟩ =>
    let (focus, loads) := hop env d seen
    ⟨focus, frames, note loads session⟩
  | ⟨.close isKey, frame :: frames, session⟩ =>
    let s := frame.schema policy isKey
    ⟨.answer s, frames, finish policy frame.expansion.descriptor frame.expansion.outer s session⟩
  | ⟨.answer s, frame :: frames, session⟩ =>
    ⟨.resume, { frame with answers := frame.answers ++ [s] } :: frames, session⟩
  | m => m

/-- The moment of a call after so many steps. -/
def moment (env : Environment ρ) (policy : RequiredPolicy) (r : Request ρ) (session : Session ρ)
    (k : Nat) : Moment ρ :=
  (step env policy)^[k] ⟨.ask r.root, [], session⟩

/-! ## The steps come to an end -/

/-- The steps lead from one moment to another. -/
def Leads (env : Environment ρ) (policy : RequiredPolicy) (m m' : Moment ρ) : Prop :=
  ∃ k, (step env policy)^[k] m = m'

section

variable {env : Environment ρ} {policy : RequiredPolicy} {m m' m'' : Moment ρ}

theorem Leads.refl (m : Moment ρ) : Leads env policy m m := ⟨0, rfl⟩

/-- Steps may follow on steps. -/
theorem Leads.trans (h : Leads env policy m m') (h' : Leads env policy m' m'') :
    Leads env policy m m'' := by
  rcases h with ⟨k, hk⟩
  rcases h' with ⟨l, hl⟩
  exact ⟨l + k, by rw [Function.iterate_add_apply, hk, hl]⟩

theorem Leads.single (h : step env policy m = m') : Leads env policy m m' := ⟨1, h⟩

/-- One step may come before others. -/
theorem Leads.head (h : step env policy m = m') (h' : Leads env policy m' m'') :
    Leads env policy m m'' := (Leads.single h).trans h'

end

variable (env : Environment ρ) (policy : RequiredPolicy)

theorem note_nil (session : Session ρ) : note [] session = session := rfl

/-- Loads that are noted one after the other are noted at once. -/
theorem note_note (loads loads' : List ρ) (session : Session ρ) :
    note loads (note loads' session) = note (loads ++ loads') session := by
  simp [note]

/-- The look at a key ends: every hop that is not the last sees one identity more, and no more than
`keyHops` are seen. -/
theorem leads_key (hops : Nat) (d : Descriptor (TypeRef ρ)) (seen : List String)
    (frames : List (Frame ρ)) (session : Session ρ) (h : hops + seen.length = keyHops) :
    Leads env policy ⟨.key d seen, frames, session⟩
      ⟨.close (isTextKeyWithin env hops seen d).1, frames,
        note (isTextKeyWithin env hops seen d).2 session⟩ := by
  induction hops generalizing d seen session with
  | zero =>
      have hfull : keyHops ≤ seen.length := by omega
      refine Leads.single ?_
      by_cases hseen : d.identity ∈ seen <;> simp [step, hop, hseen, hfull, isTextKeyWithin]
  | succ hops ih =>
      have hroom : ¬ keyHops ≤ seen.length := by omega
      by_cases hseen : d.identity ∈ seen
      · exact Leads.single (by simp [step, hop, hseen, isTextKeyWithin])
      · rcases hshape : d.shape with s | _ | _ | _ | ⟨target, _⟩ | _ | _ | _
        case pointer =>
          -- the only hop that is not the last: one hop fewer is left, and one identity more was met
          have hstep : step env policy ⟨.key d seen, frames, session⟩ =
              ⟨.key (target.load env) (d.identity :: seen), frames, note target.loads session⟩ := by
            simp [step, hop, hseen, hroom, hshape]
          have hrest := ih (target.load env) (d.identity :: seen) (note target.loads session)
            (by simp only [List.length_cons]; omega)
          rw [note_note] at hrest
          have hlook : isTextKeyWithin env (hops + 1) seen d =
              ((isTextKeyWithin env hops (d.identity :: seen) (target.load env)).1,
                (isTextKeyWithin env hops (d.identity :: seen) (target.load env)).2 ++ target.loads) := by
            simp [isTextKeyWithin, hseen, hshape]
          rw [hlook]
          exact Leads.head hstep hrest
        case scalar =>
          refine Leads.single ?_
          cases s <;> simp [step, hop, hseen, hroom, hshape, isTextKeyWithin]
        all_goals
          refine Leads.single ?_
          simp [step, hop, hseen, hroom, hshape, isTextKeyWithin]

/-- An expansion whose parts have all been asked for ends, after the look at the key of a map. -/
theorem leads_close (frame : Frame ρ) (frames : List (Frame ρ)) (session : Session ρ)
    (h : frame.pending = []) :
    Leads env policy ⟨.resume, frame :: frames, session⟩
      ⟨.close (hasTextKey env frame.expansion.descriptor.shape), frame :: frames,
        noteKey env frame.expansion.descriptor.shape session⟩ := by
  rcases frame with ⟨⟨d, outer⟩, answers, pending⟩
  cases h
  cases hshape : d.shape with
  | map key value =>
      -- Only a map asks whether its key is a text, a look of several steps that loads references; the
      -- others close at once.
      have hkey : step env policy ⟨.resume, ⟨⟨d, outer⟩, answers, []⟩ :: frames, session⟩ =
          ⟨.key (key.load env) [], ⟨⟨d, outer⟩, answers, []⟩ :: frames, note key.loads session⟩ := by
        simp [step, Frame.resume, hshape]
      have hlook := leads_key env policy keyHops (key.load env) [] (⟨⟨d, outer⟩, answers, []⟩ :: frames)
        (note key.loads session) rfl
      rw [note_note] at hlook
      exact Leads.head hkey hlook
  | _ =>
      refine Leads.single ?_
      simp only [step, Frame.resume, hshape]
      rfl

/-- The parts of an expansion are asked for one after the other. -/
theorem leads_parts (e : Expansion ρ) (ts : List (TypeRef ρ)) (frames : List (Frame ρ))
    (answers : List Schema) (session : Session ρ)
    (h : ∀ t ∈ ts, ∀ frames inside, SameDepth session.context inside.context →
      Leads env policy ⟨.ask t, frames, inside⟩
        ⟨.answer (compileRef env policy t inside).1, frames, (compileRef env policy t inside).2⟩) :
    Leads env policy ⟨.resume, ⟨e, answers, ts⟩ :: frames, session⟩
      ⟨.resume, ⟨e, answers ++ (askAll (compileRef env policy) ts session).1, []⟩ :: frames,
        (askAll (compileRef env policy) ts session).2⟩ := by
  induction ts generalizing answers session with
  | nil =>
      rw [askAll_nil, List.append_nil]
      exact Leads.refl _
  | cons t ts ih =>
      -- Asking the first part pushes the rest of the frame, and its answer is appended to those already
      -- there.
      have hask : step env policy ⟨.resume, ⟨e, answers, t :: ts⟩ :: frames, session⟩ =
          ⟨.ask t, ⟨e, answers, ts⟩ :: frames, session⟩ := by
        simp [step, Frame.resume, note_nil]
      have hanswer := h t List.mem_cons_self (⟨e, answers, ts⟩ :: frames) session ⟨rfl, rfl⟩
      have hrest := ih (answers ++ [(compileRef env policy t session).1])
        (compileRef env policy t session).2
        (fun u hu fs inside hinside => h u (List.mem_cons_of_mem t hu) fs inside
          ((compileRef_depth env policy t session).trans hinside))
      rw [askAll_cons]
      rw [List.append_assoc, List.singleton_append] at hrest
      exact Leads.head hask (hanswer.trans (Leads.head rfl hrest))

/-- A reference that is asked for is answered, with the schema and the session of its call, whatever
expansions are open around it. -/
theorem leads_answer (t : TypeRef ρ) (frames : List (Frame ρ)) (session : Session ρ) :
    Leads env policy ⟨.ask t, frames, session⟩
      ⟨.answer (compileRef env policy t session).1, frames, (compileRef env policy t session).2⟩ := by
  induction t, session using compileRef_induction env generalizing frames with
  | hcall t session ih =>
      cases hcached : cached? policy t.identity session.cache with
      | some s =>
          rw [compileRef_of_cached env hcached]
          exact Leads.single (by simp [step, guard?_of_cached hcached])
      | none =>
          cases hcut : cut? t.identity session.context with
          | some cut =>
              rw [compileRef_of_cut env hcached hcut]
              exact Leads.single (by simp [step, guard?_of_not_cached hcached, hcut])
          | none =>
              rw [compileRef_of_open env hcached hcut]
              -- opened, asked through, looked at for its key, and closed
              have hopen : step env policy ⟨.ask t, frames, session⟩ =
                  ⟨.resume, ⟨⟨t.load env, session.context⟩, [], (t.load env).shape.parts⟩ :: frames,
                    enterRef env t session⟩ := by
                simp [step, guard?_of_not_cached hcached, hcut]
              have hparts := leads_parts env policy ⟨t.load env, session.context⟩
                (t.load env).shape.parts frames [] (enterRef env t session)
                (fun u _ fs inside hinside => ih hcut u inside hinside fs)
              have hclose := leads_close env policy
                ⟨⟨t.load env, session.context⟩,
                  [] ++ (askAll (compileRef env policy) (t.load env).shape.parts (enterRef env t session)).1,
                  []⟩ frames
                (askAll (compileRef env policy) (t.load env).shape.parts (enterRef env t session)).2 rfl
              exact Leads.head hopen (hparts.trans (hclose.trans (Leads.single rfl)))

/-- The steps of a call from outside come to an end, with its schema and its session. -/
theorem moment_returns (r : Request ρ) (session : Session ρ) :
    ∃ k, moment env policy r session k =
      ⟨.answer (r.run env policy session).1, [], (r.run env policy session).2⟩ := by
  rw [Request.run_eq]
  exact leads_answer env policy r.root [] session

/-! ## What a step does to the open expansions -/

/-- A step leaves the open expansions and the cache alone, and a guard may fire; or it opens the expansion
of a reference for which no guard fires; or it closes the innermost expansion. -/
theorem step_cases (m : Moment ρ) :
    ((step env policy m).expansions = m.expansions ∧
      (step env policy m).session.cache = m.session.cache ∧
      ((step env policy m).session.context = m.session.context ∨
        (step env policy m).session.context = m.session.context.hit)) ∨
    (∃ t, m.focus = .ask t ∧ cached? policy t.identity m.session.cache = none ∧
      cut? t.identity m.session.context = none ∧
      (step env policy m).expansions = ⟨t.load env, m.session.context⟩ :: m.expansions ∧
      (step env policy m).session = enterRef env t m.session) ∨
    (∃ e es s, m.expansions = e :: es ∧ (step env policy m).expansions = es ∧
      (step env policy m).session = finish policy e.descriptor e.outer s m.session) := by
  rcases m with ⟨focus, frames, session⟩
  cases focus with
  | ask t =>
      -- Of all moments only a look-up that misses and is not cut off opens an expansion.
      cases hcached : cached? policy t.identity session.cache with
      | some s =>
          have hstep : step env policy ⟨.ask t, frames, session⟩ = ⟨.answer s, frames, session⟩ := by
            simp [step, guard?_of_cached hcached]
          rw [hstep]
          exact Or.inl ⟨rfl, rfl, Or.inl rfl⟩
      | none =>
          cases hcut : cut? t.identity session.context with
          | some cut =>
              have hstep : step env policy ⟨.ask t, frames, session⟩ =
                  ⟨.answer (cut.placeholder t.identity), frames, cutOff session⟩ := by
                simp [step, guard?_of_not_cached hcached, hcut]
              rw [hstep]
              exact Or.inl ⟨rfl, rfl, Or.inr rfl⟩
          | none =>
              have hstep : step env policy ⟨.ask t, frames, session⟩ =
                  ⟨.resume, ⟨⟨t.load env, session.context⟩, [], (t.load env).shape.parts⟩ :: frames,
                    enterRef env t session⟩ := by
                simp [step, guard?_of_not_cached hcached, hcut]
              rw [hstep]
              exact Or.inr (Or.inl ⟨t, rfl, hcached, hcut, rfl, rfl⟩)
  | resume =>
      cases frames with
      | nil => exact Or.inl ⟨rfl, rfl, Or.inl rfl⟩
      | cons frame frames =>
          -- Resuming moves answers and parts about inside the frame, never the expansion it stands for.
          have hkeep : (frame.resume env).2.1.expansion = frame.expansion := by
            unfold Frame.resume
            split <;> rfl
          refine Or.inl ⟨?_, rfl, Or.inl rfl⟩
          show (frame.resume env).2.1.expansion :: frames.map (·.expansion) =
            frame.expansion :: frames.map (·.expansion)
          rw [hkeep]
  | key d seen => exact Or.inl ⟨rfl, rfl, Or.inl rfl⟩
  | close isKey =>
      cases frames with
      | nil => exact Or.inl ⟨rfl, rfl, Or.inl rfl⟩
      | cons frame frames =>
          exact Or.inr (Or.inr ⟨frame.expansion, frames.map (·.expansion), frame.schema policy isKey,
            rfl, rfl, rfl⟩)
  | answer s =>
      cases frames with
      | nil => exact Or.inl ⟨rfl, rfl, Or.inl rfl⟩
      | cons frame frames => exact Or.inl ⟨rfl, rfl, Or.inl rfl⟩

/-- The next moment is one step on. -/
theorem moment_succ (r : Request ρ) (session : Session ρ) (k : Nat) :
    moment env policy r session (k + 1) = step env policy (moment env policy r session k) :=
  Function.iterate_succ_apply' (step env policy) k _

/-- What holds at first and is kept by a step holds at every moment. -/
theorem moment_invariant {P : Moment ρ → Prop} (r : Request ρ) (session : Session ρ)
    (hstart : P ⟨.ask r.root, [], session⟩) (hstep : ∀ m, P m → P (step env policy m)) (k : Nat) :
    P (moment env policy r session k) := by
  induction k with
  | zero => exact hstart
  | succ k ih =>
      rw [moment_succ]
      exact hstep _ ih

/-! ## The depth counts the open expansions -/

/-- The open expansions are counted by the depth, from the depth at the start of the call on, and are no
more than the depth limit leaves. -/
structure Bounded (start : Context) (m : Moment ρ) : Prop where
  depth : m.session.context.depth = start.depth + m.expansions.length
  maxDepth : m.session.context.maxDepth = start.maxDepth
  length_le : m.expansions.length ≤ start.maxDepth - start.depth

/-- **Step lemma.** A step of the machine keeps the bound on what is open. -/
theorem bounded_step {start : Context} {m : Moment ρ} (h : Bounded start m) :
    Bounded start (step env policy m) := by
  rcases h with ⟨hdepth, hmax, hlength⟩
  rcases step_cases env policy m with ⟨hes, -, hctx⟩ | ⟨t, -, -, hcut, hes, hsession⟩ |
    ⟨e, es, s, hes, hes', hsession⟩
  · rcases hctx with hctx | hctx
    · exact ⟨by rw [hctx, hes, hdepth], by rw [hctx, hmax], by rw [hes]; exact hlength⟩
    · exact ⟨by rw [hctx, hes, ← hdepth]; rfl, by rw [hctx, ← hmax]; rfl, by rw [hes]; exact hlength⟩
  · -- the guards let an expansion through only where there is room for one more
    have hbelow := (cut?_eq_none_iff.1 hcut).2
    constructor
    · rw [hsession, hes, List.length_cons]
      show m.session.context.depth + 1 = _
      omega
    · rw [hsession, ← hmax]
      rfl
    · rw [hes, List.length_cons]
      omega
  · rw [hes, List.length_cons] at hdepth hlength
    constructor
    · rw [hsession, hes']
      show m.session.context.depth - 1 = _
      omega
    · rw [hsession, ← hmax]
      rfl
    · rw [hes']
      omega

/-- At every moment of a call the depth counts the open expansions. -/
theorem bounded_moment (r : Request ρ) (session : Session ρ) (k : Nat) :
    Bounded session.context (moment env policy r session k) :=
  moment_invariant env policy r session ⟨rfl, rfl, Nat.zero_le _⟩ (fun _ h => bounded_step env policy h) k

/-- **Termination within the depth limit.** For any environment whatsoever, a call comes to an end. An
expansion is opened only where the depth is below the limit, so that no more are open at once than the
depth at the start leaves; and more levels than that change nothing. -/
theorem compile_terminates (r : Request ρ) (session : Session ρ) :
    (∃ k, moment env policy r session k =
      ⟨.answer (r.run env policy session).1, [], (r.run env policy session).2⟩) ∧
    (∀ k,
      ((moment env policy r session k).expansions.length <
          (moment env policy r session (k + 1)).expansions.length →
        (moment env policy r session k).session.context.depth < session.context.maxDepth) ∧
      (moment env policy r session k).expansions.length ≤
        session.context.maxDepth - session.context.depth) ∧
    ∀ n, levels session ≤ n →
      compileRefWithin env policy n r.root session = r.run env policy session := by
  refine ⟨moment_returns env policy r session, fun k => ⟨?_, ?_⟩, ?_⟩
  · intro hmore
    have hmax := (bounded_moment env policy r session k).maxDepth
    rw [moment_succ] at hmore
    -- An expansion is added only by an opening step, and those check the depth first.
    rcases step_cases env policy (moment env policy r session k) with ⟨hes, -, -⟩ |
      ⟨t, -, -, hcut, -, -⟩ | ⟨e, es, s, hes, hes', -⟩
    · rw [hes] at hmore
      exact absurd hmore (Nat.lt_irrefl _)
    · rw [← hmax]
      exact (cut?_eq_none_iff.1 hcut).2
    · rw [hes, hes', List.length_cons] at hmore
      omega
  · exact (bounded_moment env policy r session k).length_le
  · intro n hn
    rw [Request.run_eq]
    exact compileRefWithin_eq_of_le env policy r.root hn

end Compile

end PayloadSchema
