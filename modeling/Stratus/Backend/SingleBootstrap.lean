import Stratus.Backend.UniqueUsers

/-! `ControllerBootstrap` beside other requests: it looks once whether there are users, and
inserts its own many awaits later. -/
namespace Stratus.Backend

open Stratus.Lib

/-- A step that inserts a user. -/
def Adds (s s' : Store) : Prop :=
  LoadsOnce s s' ∧ s.storeData.isSome ∧ ∃ e, s'.users = s.users ++ [e]

/-- The code may still insert a user, when it only goes on in the given states. -/
def MayInsert (K : Store → Prop) (c : Async AuthAnswer) : Prop :=
  c.May K LoadsOnce fun s s' _ => Adds s s'

/-- The code may still answer that users exist. -/
def MayConflict (c : Async AuthAnswer) : Prop :=
  c.May (fun _ => True) (fun _ _ => True) fun _ _ t =>
    ∃ answer, t = .resolved answer ∧ ∃ error, answer = .conflict error

/-- The states in which those users have been inserted. -/
def Since (s₁ s : Store) : Prop := s.storeData.isSome ∧ s₁.users <+: s.users

def AuthRequest.IsBootstrap : AuthRequest → Prop
  | .bootstrap .. => True
  | _ => False

/-- When a user is inserted, every other bootstrap that is past its look for users has its
insertion behind it, or will find its name taken. -/
def NoRival (w w' : AccountWorld) : Prop :=
  LoadsOnce w.shared w'.shared ∧
  ∀ i op c, w.tasks[i]? = some (op, .ready c) → w' = w.resume i op c → Adds w.shared w'.shared →
    ∀ j t c', j ≠ i → w.tasks[j]? = some t → t.1.IsBootstrap → t.2.Next c' →
      ¬ MayConflict c' → ¬ MayInsert (Since w'.shared) c'

/-- At most one bootstrap is answered 201. -/
def AtMostOneBootstrap (w : AccountWorld) : Prop :=
  ∀ (i j : Nat) (op op' : AuthRequest) token user token' user',
    w.tasks[i]? = some (op, .resolved (.created token user)) → op.IsBootstrap →
    w.tasks[j]? = some (op', .resolved (.created token' user')) → op'.IsBootstrap → i = j

/-- A bootstrap that inserts its account finds no user in the store. -/
def InsertsFirst (w w' : AccountWorld) : Prop :=
  ∀ i op c, w.tasks[i]? = some (op, .ready c) → op.IsBootstrap → w' = w.resume i op c →
    Adds w.shared w'.shared → w.shared.users = []

/-! ### Before the look for users -/

/-- The store is not loaded or has users. -/
def NotEmpty (s : Store) : Prop := s.storeData = none ∨ s.users ≠ []

/-- A look for users, in which nothing is known. -/
def readPhases : Phases Store Unit where
  knows _ _ := True
  moves _ s _ s' := LoadsOnce s s' → Quiet s s'

theorem calm_read : Calm readPhases LoadsOnce () := ⟨fun _ _ h => h, .inr rfl⟩

/-- It tells whether there are users at the beginning of a stretch. -/
def Looks (sub : Async Bool) : Prop :=
  ∀ s, readPhases.Runs
    (fun _ s₀ flag s => s = s₀ ∧ s.storeData.isSome ∧ flag = !s.users.isEmpty) () s sub s

theorem hasUsers_looks : Looks hasUsers := by
  intro s
  refine (getter_phase calm_read trivial _).mono ?_
  rintro _ _ flag s₁ ⟨⟨rfl, rfl, _⟩, d, hd, rfl⟩
  refine ⟨rfl, by rw [hd]; rfl, ?_⟩
  rw [Store.users, hd]

theorem Quiet.not_adds {s s' : Store} (h : Quiet s s') : ¬ Adds s s' := by
  rintro ⟨_, hloaded, e, husers⟩
  rw [(h hloaded).2] at husers
  have := congrArg List.length husers
  simp at this

section Before

variable {rest : Bool → Async AuthAnswer}

/-- What is left of a bootstrap that is still looking. -/
def look (rest : Bool → Async AuthAnswer) (sub : Async Bool) : Async AuthAnswer :=
  sub >>= fun flag => tick >>= fun _ => rest flag

/-- One stretch of it: the look goes on, fails, or has come out. -/
theorem look_run {sub : Async Bool} (h : Looks sub) (s : Store)
    (hloads : LoadsOnce s ((look rest sub).run s).1) :
    Quiet s ((look rest sub).run s).1 ∧
    ((∃ request, ∃ k : Request.Answer request → Async Bool,
        ((look rest sub).run s).2 = .waiting request (fun x => look rest (k x)) ∧ ∀ x, Looks (k x)) ∨
      (∃ message, ((look rest sub).run s).2 = .rejected message) ∨
      (((look rest sub).run s).1 = s ∧ s.storeData.isSome ∧
        ((look rest sub).run s).2 = .waiting Request.tick (fun _ => rest (!s.users.isEmpty)))) := by
  have hstretch := (h s).stretch
  rcases Coro.run_bind sub (fun flag => tick >>= fun _ => rest flag) s with
    ⟨flag, s', hsub, hrun⟩ | ⟨message, s', hsub, hrun⟩ | ⟨request, k, s', hsub, hrun⟩
  · rw [hsub] at hstretch
    obtain ⟨rfl, hloaded, rfl⟩ := hstretch
    unfold look
    rw [hrun]
    exact ⟨.refl _, .inr (.inr ⟨rfl, hloaded, rfl⟩)⟩
  · rw [hsub] at hstretch
    obtain ⟨_, hquiet⟩ := hstretch
    unfold look at hloads ⊢
    rw [hrun] at hloads ⊢
    exact ⟨hquiet hloads, .inr (.inl ⟨message, rfl⟩)⟩
  · rw [hsub] at hstretch
    obtain ⟨_, hquiet, hk⟩ := hstretch
    unfold look at hloads ⊢
    rw [hrun] at hloads ⊢
    exact ⟨hquiet hloads, .inl ⟨request, k, rfl, fun x s => hk x s trivial⟩⟩

theorem MayInsert.mono {K K' : Store → Prop} (hK : ∀ s, K s → K' s) {c : Async AuthAnswer}
    (h : MayInsert K c) : MayInsert K' c :=
  Coro.May.mono hK h

/-- Code that ends at once. -/
theorem not_mayInsert_pure (K : Store → Prop) (answer : AuthAnswer) :
    ¬ MayInsert K (pure answer) := by
  intro h
  cases h with
  | now _ hadds => exact (Quiet.refl _).not_adds hadds
  | later _ _ hrun => cases hrun

/-- With users a bootstrap goes no further, and without users it no longer looks. -/
structure Blocks (rest : Bool → Async AuthAnswer) : Prop where
  insert : ∀ K, ¬ MayInsert K (rest true)
  conflict : ¬ MayConflict (rest false)

theorem NotEmpty.of_since {s₁ s : Store} (hne : s₁.users ≠ []) (h : Since s₁ s) : NotEmpty s := by
  refine .inr fun hnil => hne ?_
  have hbegin := h.2
  rw [hnil] at hbegin
  exact List.prefix_nil.mp hbegin

theorem not_mayInsert_look {sub : Async Bool} (hblocks : Blocks rest) (h : Looks sub) :
    ¬ MayInsert NotEmpty (look rest sub) := by
  intro hmay
  unfold MayInsert at hmay
  generalize hc : look rest sub = c at hmay
  induction hmay generalizing sub with
  | @now _ s _ hadds =>
      subst hc
      exact (look_run h s hadds.1).1.not_adds hadds
  | @later _ s s' request k x hs hrun hloads hmay ih =>
      subst hc
      have hstate : ((look rest sub).run s).1 = s' := by rw [hrun]
      have htask : ((look rest sub).run s).2 = .waiting request k := by rw [hrun]
      obtain ⟨_, hcases⟩ := look_run h s (hstate ▸ hloads)
      rw [htask] at hcases
      rcases hcases with ⟨request', k', heq, hlooks⟩ | ⟨message, heq⟩ | ⟨_, hloaded, heq⟩
      · cases heq
        exact ih (hlooks x) rfl
      · cases heq
      · cases heq
        -- the look has come out, and in these states there are users
        have husers : s.users ≠ [] := by
          rcases hs with hnone | husers
          · rw [hnone] at hloaded
            cases hloaded
          · exact husers
        have hflag : (!s.users.isEmpty) = true := by simpa using husers
        rw [hflag] at hmay
        exact hblocks.insert NotEmpty hmay

end Before

/-! ### One bootstrap -/

/-- A bootstrap does not insert a user next to others: either it has not looked, or it is
held up. -/
structure Held (s : Store) (c : Async AuthAnswer) : Prop where
  stage : (∃ rest sub, Blocks rest ∧ Looks sub ∧ c = look rest sub) ∨ ¬ MayConflict c ∨
    ∀ K, ¬ MayInsert K c
  unloaded : s.storeData = none → ¬ MayInsert NotEmpty c
  nonempty : s.storeData.isSome → s.users ≠ [] → ¬ MayInsert (Since s) c

/-- Code that never inserts a user. -/
theorem Held.of_never {s : Store} {c : Async AuthAnswer} (h : ∀ K, ¬ MayInsert K c) : Held s c :=
  ⟨.inr (.inr h), fun _ => h NotEmpty, fun _ _ => h (Since s)⟩

theorem Held.of_look {s : Store} {rest : Bool → Async AuthAnswer} {sub : Async Bool}
    (hblocks : Blocks rest) (h : Looks sub) : Held s (look rest sub) where
  stage := .inl ⟨rest, sub, hblocks, h, rfl⟩
  unloaded _ := not_mayInsert_look hblocks h
  nonempty _ hne hmay := not_mayInsert_look hblocks h (hmay.mono fun _ => .of_since hne)

/-- Another task, or the file, leaves the users alone. -/
theorem Held.quiet {s s' : Store} {c : Async AuthAnswer} (h : Held s c) (hquiet : Quiet s s') :
    Held s' c where
  stage := h.stage
  unloaded hnone := by
    cases hdata : s.storeData with
    | none => exact h.unloaded hdata
    | some d =>
        have hloaded := (hquiet (by rw [hdata]; rfl)).1
        rw [hnone] at hloaded
        cases hloaded
  nonempty _ hne hmay := by
    cases hdata : s.storeData with
    | none => exact h.unloaded hdata (hmay.mono fun _ => .of_since hne)
    | some d =>
        have hloaded : s.storeData.isSome := by rw [hdata]; rfl
        obtain ⟨_, husers⟩ := hquiet hloaded
        refine h.nonempty hloaded (husers ▸ hne) (hmay.mono fun _ hsince => ?_)
        exact ⟨hsince.1, husers ▸ hsince.2⟩

/-- Another task inserts a user. -/
theorem Held.adds {s s' : Store} {c : Async AuthAnswer} (h : Held s c)
    (hloaded : s'.storeData.isSome) (hrival : ¬ MayConflict c → ¬ MayInsert (Since s') c) :
    Held s' c where
  stage := h.stage
  unloaded hnone := by
    rw [hnone] at hloaded
    cases hloaded
  nonempty _ hne hmay := by
    rcases h.stage with ⟨rest, sub, hblocks, hlooks, rfl⟩ | hpast | hnever
    · exact not_mayInsert_look hblocks hlooks (hmay.mono fun _ => .of_since hne)
    · exact hrival hpast hmay
    · exact hnever _ hmay

/-- Its own stretch without an insertion. -/
theorem Held.run {s : Store} {c c' : Async AuthAnswer} (h : Held s c)
    (hloads : LoadsOnce s (c.run s).1) (hquiet : Quiet s (c.run s).1)
    (hnext : (c.run s).2.Next c') : Held (c.run s).1 c' := by
  have hinsert : ∀ K : Store → Prop, K s → ¬ MayInsert K c → ¬ MayInsert K c' :=
    fun K hK hnot hmay => hnot (Coro.May.of_run hK hloads hnext hmay)
  have hheld : Held s c' := by
    refine ⟨?_, fun hnone => hinsert _ (.inl hnone) (h.unloaded hnone),
      fun hloaded hne => hinsert _ ⟨hloaded, List.prefix_rfl⟩ (h.nonempty hloaded hne)⟩
    rcases h.stage with ⟨rest, sub, hblocks, hlooks, rfl⟩ | hpast | hnever
    · obtain ⟨_, hcases⟩ := look_run hlooks s hloads
      rcases hcases with ⟨request, k, heq, hk⟩ | ⟨message, heq⟩ | ⟨_, _, heq⟩
      · rw [heq] at hnext
        cases hnext with
        | waiting _ x => exact .inl ⟨rest, k x, hblocks, hk x, rfl⟩
      · rw [heq] at hnext
        cases hnext
      · rw [heq] at hnext
        cases hnext with
        | waiting _ x =>
            cases !s.users.isEmpty with
            | true => exact .inr (.inr hblocks.insert)
            | false => exact .inr (.inl hblocks.conflict)
    · exact .inr (.inl fun hmay => hpast (Coro.May.of_run trivial trivial hnext hmay))
    · exact .inr (.inr fun K hmay => hnever (fun s => True)
        (Coro.May.of_run trivial hloads hnext (hmay.mono fun _ _ => trivial)))
  exact hheld.quiet hquiet

theorem not_mayConflict_createLocal (js : Unicode) (jwt : Jwt) (username : Json)
    (password : Password) (email hash uuid : String) :
    ¬ MayConflict (createLocal js jwt username password email hash uuid) := by
  intro h
  obtain ⟨passwordHash, h⟩ := Coro.May.of_bind h
  obtain ⟨result, h⟩ := Coro.May.of_bind h
  have hanswer : ∀ answer : AuthAnswer, (∀ error, answer ≠ .conflict error) →
      ¬ MayConflict (pure answer) := by
    intro answer hne hmay
    cases hmay with
    | now _ hevent =>
        obtain ⟨_, heq, error, rfl⟩ := hevent
        cases heq
        exact hne error rfl
    | later _ _ hrun => cases hrun
  have hfail : ∀ message, ¬ MayConflict (.fail message) := by
    intro message hmay
    cases hmay with
    | now _ hevent =>
        obtain ⟨_, heq, _⟩ := hevent
        cases heq
    | later _ _ hrun => cases hrun
  cases result with
  | created t user =>
      obtain ⟨token, h⟩ := Coro.May.of_bind h
      exact hanswer (.created (some token) (toPublicUser user)) nofun h
  | _ => exact hfail _ h

theorem blocks_bootstrap (js : Unicode) (jwt : Jwt) (username : Json) (password : Password)
    (email hash uuid : String) :
    Blocks (bootstrapUnless js jwt username password email hash uuid) where
  insert K := not_mayInsert_pure K _
  conflict := not_mayConflict_createLocal js jwt username password email hash uuid

theorem held_bootstrap (js : Unicode) (jwt : Jwt) {request : AuthRequest}
    (hrequest : request.IsBootstrap) (s : Store) : Held s (handle js jwt request) := by
  cases request with
  | bootstrap body hash uuid =>
      change Held s (controllerBootstrap js jwt body hash uuid)
      unfold controllerBootstrap
      split
      · exact .of_never fun K => not_mayInsert_pure K _
      · next username password _ =>
        split
        · exact .of_never fun K => not_mayInsert_pure K _
        · have hlook : Held s (look (bootstrapUnless js jwt username password
              (orText body.email "") hash uuid) hasUsers) :=
            .of_look (blocks_bootstrap ..) hasUsers_looks
          unfold call
          rw [Coro.bind_assoc]
          exact hlook
  | registerLocal _ _ _ => exact hrequest.elim
  | loginLocal _ _ => exact hrequest.elim
  | createUser _ _ _ => exact hrequest.elim

/-! ### Runs -/

/-- The phases when only the first load of the store is looked at. -/
def bootstrapPhases (js : Unicode) : Phases Store Phase :=
  handlerPhases js LoadsOnce fun _ _ => True

/-- A task inserts once. -/
theorem not_mayInsert_inserted {js : Unicode} {c : Async AuthAnswer}
    (h : (bootstrapPhases js).At Answered .inserted (.ready c)) (K : Store → Prop) :
    ¬ MayInsert K c := by
  intro hmay
  unfold MayInsert at hmay
  induction hmay with
  | @now c s _ hadds =>
      obtain ⟨q, hmoves, _⟩ := (h s trivial).run
      cases q with
      | inserted => exact (hmoves hadds.1).not_adds hadds
      | idle => exact hmoves.elim
      | inserting user => exact hmoves.elim
  | @later c s s' request k x _ hrun hloads _ ih =>
      obtain ⟨q, hmoves, hat⟩ := (h s trivial).run
      rw [hrun] at hmoves hat
      cases q with
      | inserted => exact ih fun s₁ h₁ => hat x s₁ h₁
      | idle => exact hmoves.elim
      | inserting user => exact hmoves.elim

/-- What holds of the tasks, each in its phase. -/
structure Bootstraps (js : Unicode) (w : AccountWorld) (phase : Nat → Phase) : Prop where
  at_ : ∀ (j : Nat) t, w.tasks[j]? = some t → (bootstrapPhases js).At Answered (phase j) t.2
  held : ∀ (j : Nat) t c, w.tasks[j]? = some t → t.1.IsBootstrap → t.2.Next c → Held w.shared c
  inserted : ∀ (j : Nat) t, w.tasks[j]? = some t → t.1.IsBootstrap → phase j = .inserted →
    w.shared.storeData.isSome ∧ w.shared.users ≠ []
  one : ∀ (i j : Nat) t t', w.tasks[i]? = some t → t.1.IsBootstrap → phase i = .inserted →
    w.tasks[j]? = some t' → t'.1.IsBootstrap → phase j = .inserted → i = j

/-- A phase in which no user has been inserted in this step. -/
theorem phase_cases {js : Unicode} {p q : Phase} {s s' : Store}
    (hmoves : (bootstrapPhases js).moves p s q s') (hloads : LoadsOnce s s') :
    (Quiet s s' ∧ (q = .inserted → p = .inserted)) ∨
    (Adds s s' ∧ s'.storeData.isSome ∧ q = .inserted) := by
  cases p with
  | idle =>
      cases q with
      | idle => exact .inl ⟨hmoves hloads, nofun⟩
      | inserting user => exact .inl ⟨(hmoves hloads).1, nofun⟩
      | inserted => exact hmoves.elim
  | inserting user =>
      cases q with
      | idle => exact .inl ⟨(hmoves hloads).2, nofun⟩
      | inserting user => exact hmoves.elim
      | inserted =>
          obtain ⟨hloaded, hloaded', ref, husers⟩ := hmoves hloads
          exact .inr ⟨⟨hloads, hloaded, _, husers⟩, hloaded', rfl⟩
  | inserted =>
      cases q with
      | inserted => exact .inl ⟨hmoves hloads, fun _ => rfl⟩
      | idle => exact hmoves.elim
      | inserting user => exact hmoves.elim

/-- An insertion by a bootstrap finds no user. -/
theorem Held.first {s : Store} {c : Async AuthAnswer} (h : Held s c) (hadds : Adds s (c.run s).1) :
    s.users = [] := by
  by_contra hne
  exact h.nonempty hadds.2.1 hne (.now ⟨hadds.2.1, List.prefix_rfl⟩ hadds)

/-- One step by a task. -/
theorem Bootstraps.resume {js : Unicode} {w : AccountWorld} {phase : Nat → Phase}
    (h : Bootstraps js w phase) {i : Nat} {op : AuthRequest} {c : Async AuthAnswer}
    (hi : w.tasks[i]? = some (op, .ready c)) (hallowed : NoRival w (w.resume i op c)) :
    ∃ phase', Bootstraps js (w.resume i op c) phase' := by
  obtain ⟨q, hmoves, hat⟩ := (h.at_ i _ hi w.shared trivial).run
  refine ⟨Function.update phase i q, ?_⟩
  -- a task after the step is the one that made it, or has not changed
  have htask : ∀ {j : Nat} {t}, (w.resume i op c).tasks[j]? = some t →
      (j = i ∧ t = (op, (c.run w.shared).2)) ∨ (j ≠ i ∧ w.tasks[j]? = some t) := by
    intro j t hj
    exact getElem?_set_cases hj
  have hat' : ∀ (j : Nat) t, (w.resume i op c).tasks[j]? = some t →
      (bootstrapPhases js).At Answered (Function.update phase i q j) t.2 := by
    intro j t hj
    rcases htask hj with ⟨rfl, rfl⟩ | ⟨hji, hold⟩
    · rw [Function.update_self]
      exact hat
    · rw [Function.update_of_ne hji]
      exact h.at_ j t hold
  rcases phase_cases hmoves hallowed.1 with ⟨hquiet, hphase⟩ | ⟨hadds, hloaded, rfl⟩
  · have hinserted : ∀ (j : Nat) t, (w.resume i op c).tasks[j]? = some t → t.1.IsBootstrap →
        Function.update phase i q j = .inserted →
        ∃ t', w.tasks[j]? = some t' ∧ t'.1.IsBootstrap ∧ phase j = .inserted := by
      intro j t hj hboot hp
      rcases htask hj with ⟨rfl, rfl⟩ | ⟨hji, hold⟩
      · rw [Function.update_self] at hp
        exact ⟨_, hi, hboot, hphase hp⟩
      · rw [Function.update_of_ne hji] at hp
        exact ⟨t, hold, hboot, hp⟩
    refine ⟨hat', fun j t c' hj hboot hnext => ?_, fun j t hj hboot hp => ?_,
      fun k j t t' hk hboot hp hj hboot' hp' => ?_⟩
    · rcases htask hj with ⟨rfl, rfl⟩ | ⟨_, hold⟩
      · exact (h.held j _ c hi hboot (.ready c)).run hallowed.1 hquiet hnext
      · exact (h.held j t c' hold hboot hnext).quiet hquiet
    · obtain ⟨t', hold, hboot', hp'⟩ := hinserted j t hj hboot hp
      obtain ⟨hloaded, hne⟩ := h.inserted j t' hold hboot' hp'
      obtain ⟨hloaded', husers⟩ := hquiet hloaded
      refine ⟨hloaded', ?_⟩
      change (c.run w.shared).1.users ≠ []
      rw [husers]
      exact hne
    · obtain ⟨u, hold, hb, hq⟩ := hinserted k t hk hboot hp
      obtain ⟨u', hold', hb', hq'⟩ := hinserted j t' hj hboot' hp'
      exact h.one k j u u' hold hb hq hold' hb' hq'
  · have hne : (w.resume i op c).shared.users ≠ [] := by
      obtain ⟨_, _, e, husers⟩ := hadds
      change (c.run w.shared).1.users ≠ []
      rw [husers]
      simp
    -- the first bootstrap to insert finds no user, so none has inserted before
    have hfirst : op.IsBootstrap → ∀ (j : Nat) t, w.tasks[j]? = some t → t.1.IsBootstrap →
        phase j ≠ .inserted := by
      intro hboot j t hj hbootj hp
      exact (h.inserted j t hj hbootj hp).2 ((h.held i _ c hi hboot (.ready c)).first hadds)
    refine ⟨hat', fun j t c' hj hboot hnext => ?_, fun j t hj hboot hp => ⟨hloaded, hne⟩,
      fun k j t t' hk hboot hp hj hboot' hp' => ?_⟩
    · rcases htask hj with ⟨rfl, rfl⟩ | ⟨hji, hold⟩
      · exact .of_never (not_mayInsert_inserted (hat.next hnext))
      · exact (h.held j t c' hold hboot hnext).adds hloaded
          (hallowed.2 i op c hi rfl hadds j t c' hji hold hboot hnext)
    · rcases htask hk with ⟨rfl, rfl⟩ | ⟨hki, holdk⟩ <;> rcases htask hj with ⟨rfl, rfl⟩ | ⟨hji, hold⟩
      · rfl
      · rw [Function.update_of_ne hji] at hp'
        exact absurd hp' (hfirst hboot j t' hold hboot')
      · rw [Function.update_of_ne hki] at hp
        exact absurd hp (hfirst hboot' k t holdk hboot)
      · rw [Function.update_of_ne hki] at hp
        rw [Function.update_of_ne hji] at hp'
        exact h.one k j t t' holdk hboot hp hold hboot' hp'

/-- A new request. -/
theorem Bootstraps.start {js : Unicode} {w : AccountWorld} {phase : Nat → Phase}
    (h : Bootstraps js w phase) (jwt : Jwt) (op : AuthRequest) :
    Bootstraps js { w with tasks := w.tasks ++ [(op, .ready (handle js jwt op))] }
      (Function.update phase w.tasks.length .idle) := by
  have htask : ∀ {j : Nat} {t}, (w.tasks ++ [(op, .ready (handle js jwt op))])[j]? = some t →
      (j ≠ w.tasks.length ∧ w.tasks[j]? = some t) ∨
      (j = w.tasks.length ∧ t = (op, .ready (handle js jwt op))) := by
    intro j t hj
    rcases getElem?_snoc_cases hj with hold | hnew
    · exact .inl ⟨Nat.ne_of_lt (List.getElem?_eq_some_iff.mp hold).1, hold⟩
    · exact .inr hnew
  have hinserted : ∀ {j : Nat}, Function.update phase w.tasks.length .idle j = .inserted →
      phase j = .inserted := by
    intro j hp
    by_cases hj : j = w.tasks.length
    · subst hj
      rw [Function.update_self] at hp
      cases hp
    · rwa [Function.update_of_ne hj] at hp
  have hold : ∀ {j : Nat} {t}, (w.tasks ++ [(op, .ready (handle js jwt op))])[j]? = some t →
      Function.update phase w.tasks.length .idle j = .inserted → w.tasks[j]? = some t := by
    intro j t hj hp
    rcases htask hj with ⟨_, hj⟩ | ⟨rfl, rfl⟩
    · exact hj
    · rw [Function.update_self] at hp
      cases hp
  refine ⟨fun j t hj => ?_, fun j t c hj hboot hnext => ?_, fun j t hj hboot hp => ?_,
    fun i j t t' hi hboot hp hj hboot' hp' => ?_⟩
  · rcases htask hj with ⟨hne, hj⟩ | ⟨rfl, rfl⟩
    · rw [Function.update_of_ne hne]
      exact h.at_ j t hj
    · rw [Function.update_self]
      exact handle_phase (.inr rfl) jwt op
  · rcases htask hj with ⟨_, hj⟩ | ⟨rfl, rfl⟩
    · exact h.held j t c hj hboot hnext
    · cases hnext with
      | ready => exact held_bootstrap js jwt hboot w.shared
  · exact h.inserted j t (hold hj hp) hboot (hinserted hp)
  · exact h.one i j t t' (hold hi hp) hboot (hinserted hp) (hold hj hp') hboot' (hinserted hp')

/-- An await that is over. -/
theorem Bootstraps.answer {js : Unicode} {w : AccountWorld} {phase : Nat → Phase}
    (h : Bootstraps js w phase) {i : Nat} {op : AuthRequest} {request : Request}
    {k : Request.Answer request → Async AuthAnswer} (x : Request.Answer request)
    (hi : w.tasks[i]? = some (op, .waiting request k)) :
    Bootstraps js { w with tasks := w.tasks.set i (op, .ready (k x)) } phase := by
  -- the task goes on as it did
  have htask : ∀ {j : Nat} {t}, (w.tasks.set i (op, .ready (k x)))[j]? = some t →
      ∃ t', w.tasks[j]? = some t' ∧ t.1 = t'.1 ∧ (∀ c, t.2.Next c → t'.2.Next c) ∧
        ∀ p, (bootstrapPhases js).At Answered p t'.2 → (bootstrapPhases js).At Answered p t.2 := by
    intro j t hj
    rcases getElem?_set_cases hj with ⟨rfl, rfl⟩ | ⟨-, hold⟩
    · refine ⟨_, hi, rfl, fun c hnext => ?_, fun p hat => hat x⟩
      cases hnext with
      | ready => exact .waiting k x
    · exact ⟨t, hold, rfl, fun c hnext => hnext, fun p hat => hat⟩
  refine ⟨fun j t hj => ?_, fun j t c hj hboot hnext => ?_, fun j t hj hboot hp => ?_,
    fun i j t t' hi hboot hp hj hboot' hp' => ?_⟩
  · obtain ⟨t', hold, _, _, hat⟩ := htask hj
    exact hat _ (h.at_ j t' hold)
  · obtain ⟨t', hold, hop, hn, _⟩ := htask hj
    exact h.held j t' c hold (hop ▸ hboot) (hn c hnext)
  · obtain ⟨t', hold, hop, _⟩ := htask hj
    exact h.inserted j t' hold (hop ▸ hboot) hp
  · obtain ⟨u, holdi, hop, _⟩ := htask hi
    obtain ⟨u', holdj, hop', _⟩ := htask hj
    exact h.one i j u u' holdi (hop ▸ hboot) hp holdj (hop' ▸ hboot') hp'

/-- The file is written. -/
theorem Bootstraps.ambient {js : Unicode} {w : AccountWorld} {phase : Nat → Phase}
    (h : Bootstraps js w phase) {s : Store} (hwrites : Writes w.shared s) :
    Bootstraps js { w with shared := s } phase where
  at_ := h.at_
  held j t c hj hboot hnext := (h.held j t c hj hboot hnext).quiet hwrites.quiet
  inserted j t hj hboot hp := by
    obtain ⟨hloaded, hne⟩ := h.inserted j t hj hboot hp
    obtain ⟨hloaded', husers⟩ := hwrites.quiet hloaded
    refine ⟨hloaded', ?_⟩
    rw [husers]
    exact hne
  one := h.one

/-- In every run, with any store at first, in which no insertion has a rival, at most one
bootstrap is answered 201 and a bootstrap inserts into an empty store. -/
theorem single_bootstrap_of_noRival (js : Unicode) (jwt : Jwt) {w : AccountWorld}
    (hw : ((accountSystem js jwt fun _ => True).restrict NoRival).Reachable w) :
    AtMostOneBootstrap w ∧ ∀ w', NoRival w w' → InsertsFirst w w' := by
  have hinv : ∃ phase, Bootstraps js w phase := by
    refine hw.invariant (fun w => ∃ phase, Bootstraps js w phase) ?_ ?_
    · rintro w ⟨-, htasks⟩
      refine ⟨fun _ => .idle, ?_⟩
      constructor <;> simp [htasks]
    · rintro w w' ⟨phase, h⟩ ⟨hstep, hallowed⟩
      cases hstep with
      | start op => exact ⟨_, h.start jwt op⟩
      | answer i x hi hx => exact ⟨phase, h.answer x hi⟩
      | @resume i op c hi => exact h.resume hi hallowed
      | ambient hwrites => exact ⟨phase, h.ambient hwrites⟩
  obtain ⟨phase, h⟩ := hinv
  constructor
  · intro i j op op' token user token' user' hi hboot hj hboot'
    exact h.one i j _ _ hi hboot (h.at_ i _ hi token user rfl) hj hboot'
      (h.at_ j _ hj token' user' rfl)
  · rintro w' _ i op c hi hboot rfl hadds
    exact (h.held i _ c hi hboot (.ready c)).first hadds

def firstAdmin (username : String) : AuthRequest :=
  .bootstrap ⟨some (.str username), some (.text "password"), none⟩ "hash" username

/-- A step that inserts nothing, or that of a request alone, has no rival. -/
theorem noRival_of {w w' : AccountWorld} (hloads : LoadsOnce w.shared w'.shared)
    (h : w'.shared.users.length = w.shared.users.length ∨ w.tasks.length ≤ 1) : NoRival w w' := by
  refine ⟨hloads, fun i op c hi _ hadds j t c' hji hj => ?_⟩
  rcases h with hsame | hone
  · obtain ⟨-, -, e, husers⟩ := hadds
    rw [husers, List.length_append, List.length_singleton] at hsame
    omega
  · have hlt := (List.getElem?_eq_some_iff.mp hi).1
    have hlt' := (List.getElem?_eq_some_iff.mp hj).1
    omega

/-- The second request looks while the first account is being written. -/
def lateBootstrap : List (Move AuthRequest) :=
  List.flatten
    [[.start (firstAdmin "a")], Move.turns 0 8, [.start (firstAdmin "b")], Move.turns 1 2,
      Move.turns 0 1, [.ambient], Move.turns 1 2, [.ambient], Move.turns 0 3]

set_option maxRecDepth 1000 in
theorem single_bootstrap_lateBootstrap : ∃ w : AccountWorld, AtMostOneBootstrap w ∧
    (∃ token user, w.tasks[0]? = some (firstAdmin "a", .resolved (.created token user))) ∧
    w.tasks[1]? = some (firstAdmin "b",
      .resolved (.conflict "Bootstrap already completed — users exist")) := by
  have hcheck : ∀ w w' : AccountWorld, (LoadsOnce w.shared w'.shared ∧
      (w'.shared.users.length = w.shared.users.length ∨ w.tasks.length ≤ 1)) → NoRival w w' :=
    fun w w' h => noRival_of h.1 h.2
  have h : ((accountSystem ascii plainJwt fun _ => True).restrict NoRival).Reachable _ :=
    reachable_accountsAfter _ hcheck trivial lateBootstrap
  exact ⟨_, (single_bootstrap_of_noRival ascii plainJwt h).1, ⟨_, _, rfl⟩, rfl⟩

/-- Both requests look and find no user, then each of them goes on to its end. -/
def bothLook : List (Move AuthRequest) :=
  List.flatten
    [[.start (firstAdmin "a")], Move.turns 0 3, [.start (firstAdmin "b")], Move.turns 1 3,
      Move.turns 0 6, [.ambient, .ambient], Move.turns 0 3,
      Move.turns 1 6, [.ambient, .ambient], Move.turns 1 3]

set_option maxRecDepth 1000 in
/-- Two bootstraps with different names that have both looked when the first one inserts. -/
theorem two_bootstraps : ¬ ∀ js jwt (w : AccountWorld),
    (accountSystem js jwt fun _ => True).Reachable w → AtMostOneBootstrap w := by
  intro hall
  have h : (accountSystem ascii plainJwt fun _ => True).Reachable
      (accountsAfter (fun _ _ => True) bothLook) :=
    (reachable_accountsAfter (fun _ _ => True) (fun _ _ => id) trivial bothLook).of_restrict
  have hsame : 0 = 1 := hall _ _ _ h 0 1 _ _ _ _ _ _ rfl trivial rfl trivial
  cases hsame

end Stratus.Backend
