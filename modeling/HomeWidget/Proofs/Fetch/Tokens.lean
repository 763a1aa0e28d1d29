import HomeWidget.Proofs.Fetch.Interleaving

/-!
# Tokens follow the order of starts

Over the runs of the machine of overlapping requests: the tokens of a pipeline grow with the order in which its
requests start, and the latest token of an id is told by the events alone. What a run has made true at its end was
either made true by one of its events and not spoiled after it, or was true before and never spoiled; the latest token
of an id and the ids that have one are both of this kind.

Main results: `run_iff`, `issued_run`, `tokens_in_order`.
-/
namespace HomeWidget

/-! ## §1. Events of an id -/

namespace Event

/-- The event starts a request of this pipeline. -/
def StartedBy (q : Nat) : Event → Prop
  | .start owner _ => owner = q
  | _ => False

instance (q : Nat) : DecidablePred (StartedBy q)
  | .start owner _ => inferInstanceAs (Decidable (owner = q))
  | .arrival _ _ => inferInstanceAs (Decidable False)
  | .forget _ _ => inferInstanceAs (Decidable False)

/-- The event starts a request of this pipeline for this trimmed id. -/
def Starts (q : Nat) (key : String) : Event → Prop
  | .start owner request => owner = q ∧ Text.trimmed request.id = key
  | _ => False

/-- The event makes this pipeline forget this trimmed id. -/
def Forgets (q : Nat) (key : String) : Event → Prop
  | .forget owner id => owner = q ∧ Text.trimmed id = key
  | _ => False

end Event

namespace World

/-! ## §2. What a step does to a book -/

/-- The token that the next request of a pipeline gets. -/
def nextToken (w : World) (q : Nat) : Token := ⟨(w.pipelines q).tokens.next⟩

/-- The latest token of a trimmed id in a pipeline. -/
def latest? (w : World) (q : Nat) (key : String) : Option Token := (w.pipelines q).tokens.latest.get? key

/-- An arrival changes no pipeline, and so no token that was issued. -/
theorem pipelines_arrive (w : World) (place : Nat) (answer : Answer) :
    (w.arrive place answer).pipelines = w.pipelines := by
  unfold arrive
  split <;> rfl

/-- A start changes the pipeline that it goes through, and that only by the issue of a token. -/
theorem pipelines_start (w : World) (owner : Nat) (request : Request) :
    (w.start owner request).pipelines
      = replacePipeline w.pipelines owner ((w.pipelines owner).issue request).2 := by
  rw [start_eq]

/-- The latest token of an id becomes the one issued when the id is asked for, in whatever white space. -/
theorem latest?_start (w : World) (owner q : Nat) (request : Request) (key : String) :
    (w.step (.start owner request)).latest? q key
      = if owner = q ∧ Text.trimmed request.id = key then some (w.nextToken q) else w.latest? q key := by
  unfold latest? nextToken
  show ((w.start owner request).pipelines q).tokens.latest.get? key = _
  rw [pipelines_start]
  by_cases hq : q = owner
  · subst hq
    rw [replacePipeline_self]
    show ((w.pipelines q).tokens.latest.insert request.target ⟨(w.pipelines q).tokens.next⟩).get? key = _
    rw [Table.get?_insert]
    by_cases hk : key = request.target
    · rw [if_pos hk, if_pos ⟨rfl, hk.symm⟩]
    · rw [if_neg hk, if_neg fun h => hk h.2.symm]
  · rw [replacePipeline_of_ne _ hq, if_neg fun h => hq h.1.symm]

/-- An id that is forgotten has no latest token. -/
theorem latest?_forget (w : World) (owner q : Nat) (id key : String) :
    (w.step (.forget owner id)).latest? q key
      = if owner = q ∧ Text.trimmed id = key then none else w.latest? q key := by
  unfold latest?
  show (replacePipeline w.pipelines owner ((w.pipelines owner).forget id) q).tokens.latest.get? key = _
  by_cases hq : q = owner
  · subst hq
    rw [replacePipeline_self]
    show ((w.pipelines q).tokens.latest.erase (Text.trimmed id)).get? key = _
    rw [Table.get?_erase]
    by_cases hk : key = Text.trimmed id
    · rw [if_pos hk, if_pos ⟨rfl, hk.symm⟩]
    · rw [if_neg hk, if_neg fun h => hk h.2.symm]
  · rw [replacePipeline_of_ne _ hq, if_neg fun h => hq h.1.symm]

/-- An arrival makes no token the latest, and takes none its place. -/
theorem latest?_arrival (w : World) (place q : Nat) (answer : Answer) (key : String) :
    (w.step (.arrival place answer)).latest? q key = w.latest? q key := by
  unfold latest?
  show ((w.arrive place answer).pipelines q).tokens.latest.get? key = _
  rw [pipelines_arrive]

/-- A token is the latest of an id after an event if the event issued it for the id, or if it was so before and the
event neither started a request for the id nor forgot it. -/
theorem latest?_step_iff (w : World) (e : Event) (q : Nat) (key : String) (token : Token) :
    (w.step e).latest? q key = some token
      ↔ (e.Starts q key ∧ w.nextToken q = token)
        ∨ (w.latest? q key = some token ∧ ¬(e.Starts q key ∨ e.Forgets q key)) := by
  cases e with
  | start owner request =>
    rw [latest?_start]
    by_cases h : owner = q ∧ Text.trimmed request.id = key
    · rw [if_pos h]
      simp [Event.Starts, h]
    · rw [if_neg h]
      simp only [Event.Starts, Event.Forgets, h, or_false, not_false_eq_true, and_true, false_and, false_or]
  | forget owner id =>
    rw [latest?_forget]
    by_cases h : owner = q ∧ Text.trimmed id = key
    · rw [if_pos h]
      simp [Event.Starts, Event.Forgets, h]
    · rw [if_neg h]
      simp only [Event.Starts, Event.Forgets, h, or_false, not_false_eq_true, and_true, false_and, false_or]
  | arrival place answer =>
    rw [latest?_arrival]
    simp [Event.Starts, Event.Forgets]

/-- An id has a latest token after an event if the event started a request for it, or if it had one before and the
event did not forget it. -/
theorem isSome_latest?_step_iff (w : World) (e : Event) (q : Nat) (key : String) :
    ((w.step e).latest? q key).isSome = true
      ↔ e.Starts q key ∨ ((w.latest? q key).isSome = true ∧ ¬e.Forgets q key) := by
  cases e with
  | start owner request =>
    rw [latest?_start]
    by_cases h : owner = q ∧ Text.trimmed request.id = key
    · rw [if_pos h]
      simp [Event.Starts, h]
    · rw [if_neg h]
      simp only [Event.Starts, Event.Forgets, h, not_false_eq_true, and_true, false_or]
  | forget owner id =>
    rw [latest?_forget]
    by_cases h : owner = q ∧ Text.trimmed id = key
    · rw [if_pos h]
      simp [Event.Starts, Event.Forgets, h]
    · rw [if_neg h]
      simp only [Event.Starts, Event.Forgets, h, not_false_eq_true, and_true, false_or]
  | arrival place answer =>
    rw [latest?_arrival]
    simp [Event.Starts, Event.Forgets]

/-! ## §3. What a run has made true -/

/-- **What holds after a run** was made true by an event and not spoiled after it, or held before and was not spoiled,
if this is so for every step. -/
theorem run_iff {holds : World → Prop} {makes : World → Event → Prop} {spoils : Event → Prop}
    (hstep : ∀ w e, holds (w.step e) ↔ makes w e ∨ (holds w ∧ ¬spoils e)) (w : World) (events : List Event) :
    holds (w.run events)
      ↔ (∃ before e after, events = before ++ e :: after ∧ makes (w.run before) e ∧ ∀ d ∈ after, ¬spoils d)
        ∨ (holds w ∧ ∀ d ∈ events, ¬spoils d) := by
  induction events generalizing w with
  | nil => simp
  | cons e events ih =>
    rw [run_cons, ih, hstep]
    constructor
    · -- it was made by a later event, by the first one, or by none of them
      rintro (⟨before, d, after, rfl, hmakes, hafter⟩ | ⟨hmakes | ⟨hw, he⟩, hafter⟩)
      · exact Or.inl ⟨e :: before, d, after, rfl, hmakes, hafter⟩
      · exact Or.inl ⟨[], e, events, rfl, hmakes, hafter⟩
      · exact Or.inr ⟨hw, List.forall_mem_cons.2 ⟨he, hafter⟩⟩
    · rintro (⟨before, d, after, hsplit, hmakes, hafter⟩ | ⟨hw, hall⟩)
      · cases before with
        | nil =>
          obtain ⟨rfl, rfl⟩ := List.cons.inj hsplit
          exact Or.inr ⟨Or.inl hmakes, hafter⟩
        | cons first before =>
          obtain ⟨rfl, hrest⟩ := List.cons.inj hsplit
          exact Or.inl ⟨before, d, after, hrest, hmakes, hafter⟩
      · obtain ⟨he, hafter⟩ := List.forall_mem_cons.1 hall
        exact Or.inr ⟨Or.inr ⟨hw, he⟩, hafter⟩

/-- **The latest token of an id** is the one of a start that neither a start nor a forgetting of the id has followed, or
the one from before the run if there was neither. -/
theorem latest?_run_iff (w : World) (events : List Event) (q : Nat) (key : String) (token : Token) :
    (w.run events).latest? q key = some token
      ↔ (∃ before e after, events = before ++ e :: after ∧ (e.Starts q key ∧ (w.run before).nextToken q = token)
          ∧ ∀ d ∈ after, ¬(d.Starts q key ∨ d.Forgets q key))
        ∨ (w.latest? q key = some token ∧ ∀ d ∈ events, ¬(d.Starts q key ∨ d.Forgets q key)) :=
  @run_iff (fun w => w.latest? q key = some token) (fun w e => e.Starts q key ∧ w.nextToken q = token) _
    (fun w e => latest?_step_iff w e q key token) w events

/-- An id is known just when it was asked for, or known before, and not forgotten since. -/
theorem isSome_latest?_run_iff (w : World) (events : List Event) (q : Nat) (key : String) :
    ((w.run events).latest? q key).isSome = true
      ↔ (∃ before e after, events = before ++ e :: after ∧ e.Starts q key ∧ ∀ d ∈ after, ¬d.Forgets q key)
        ∨ ((w.latest? q key).isSome = true ∧ ∀ d ∈ events, ¬d.Forgets q key) :=
  @run_iff (fun w => (w.latest? q key).isSome = true) (fun _ e => e.Starts q key) _
    (fun w e => isSome_latest?_step_iff w e q key) w events

/-! ## §4. The tokens that were issued -/

/-- The owner and the token of every request, in the order of the starts. -/
def issued (w : World) : List (Nat × Token) := w.requests.map fun u => (u.owner, u.token)

/-- The tokens of a pipeline, in the order in which they were issued. -/
def tokensOf (w : World) (q : Nat) : List Token := (w.issued.filter fun i => i.1 == q).map Prod.snd

theorem issued_arrive (w : World) (place : Nat) (answer : Answer) : (w.arrive place answer).issued = w.issued := by
  unfold issued
  -- place by place: a request keeps its owner and its token when it is settled
  apply List.ext_getElem?
  intro i
  rw [List.getElem?_map, List.getElem?_map]
  cases hu : w.requests[i]? with
  | none =>
    have hlength := length_arrive w place answer
    rw [List.getElem?_eq_none_iff] at hu
    rw [List.getElem?_eq_none_iff.2 (by omega)]
  | some u =>
    rw [show (w.arrive place answer).requests[i]? = _ from requests_step hu (.arrival place answer)]
    rfl

/-- A start issues one token: the next of its pipeline. -/
theorem issued_start (w : World) (owner : Nat) (request : Request) :
    (w.start owner request).issued = w.issued ++ [(owner, w.nextToken owner)] := by
  unfold issued
  rw [start_eq, List.map_append]
  rfl

/-- After `n` starts a pipeline has issued the tokens from one to `n`, as machine words, and its next one follows. -/
structure Issued (q n : Nat) (w : World) : Prop where
  tokens : w.tokensOf q = (List.range n).map fun i => ⟨UInt64.ofNat (i + 1)⟩
  next : w.nextToken q = ⟨UInt64.ofNat (n + 1)⟩

/-- **The step of the count**: the tokens issued so far are numbered without a gap, and a start adds one. -/
theorem issued_step {q n : Nat} {w : World} (h : Issued q n w) (e : Event) :
    Issued q (n + if e.StartedBy q then 1 else 0) (w.step e) := by
  -- only a start of the pipeline itself appends to its tokens and counts on
  cases e with
  | arrival place answer =>
    rw [if_neg (show ¬(Event.arrival place answer).StartedBy q from id), Nat.add_zero]
    constructor
    · rw [← h.tokens]
      show (((w.arrive place answer).issued.filter _).map _) = _
      rw [issued_arrive]
      rfl
    · rw [← h.next]
      show (⟨((w.arrive place answer).pipelines q).tokens.next⟩ : Token) = _
      rw [pipelines_arrive]
      rfl
  | forget owner id =>
    rw [if_neg (show ¬(Event.forget owner id).StartedBy q from fun h => h), Nat.add_zero]
    refine ⟨h.tokens, ?_⟩
    rw [← h.next]
    unfold nextToken
    show (⟨(replacePipeline w.pipelines owner ((w.pipelines owner).forget id) q).tokens.next⟩ : Token) = _
    by_cases hq : q = owner
    · rw [hq, replacePipeline_self]
      rfl
    · rw [replacePipeline_of_ne _ hq]
  | start owner request =>
    have htokens : (w.step (.start owner request)).tokensOf q
        = w.tokensOf q ++ if owner = q then [w.nextToken owner] else [] := by
      unfold tokensOf
      show ((w.start owner request).issued.filter _).map _ = _
      rw [issued_start, List.filter_append, List.map_append]
      by_cases hq : owner = q <;> simp [hq]
    have hnext : (w.step (.start owner request)).nextToken q
        = if owner = q then ⟨(w.nextToken q).word + 1⟩ else w.nextToken q := by
      unfold nextToken
      show (⟨((w.start owner request).pipelines q).tokens.next⟩ : Token) = _
      rw [pipelines_start]
      by_cases hq : q = owner
      · rw [if_pos hq.symm, hq, replacePipeline_self]
        rfl
      · rw [replacePipeline_of_ne _ hq, if_neg fun h => hq h.symm]
    by_cases hq : owner = q
    · rw [if_pos (show (Event.start owner request).StartedBy q from hq)]
      constructor
      · rw [htokens, if_pos hq, hq, h.tokens, h.next, List.range_succ, List.map_append]
        rfl
      · rw [hnext, if_pos hq, h.next]
        simp
    · rw [if_neg (show ¬(Event.start owner request).StartedBy q from hq), Nat.add_zero]
      constructor
      · rw [htokens, if_neg hq, List.append_nil, h.tokens]
      · rw [hnext, if_neg hq, h.next]

/-- After a run a pipeline has issued as many tokens as it had starts, numbered in their order. -/
theorem issued_run {q n : Nat} {w : World} (h : Issued q n w) (events : List Event) :
    Issued q (n + events.countP fun e => e.StartedBy q) (w.run events) := by
  induction events generalizing n w with
  | nil => exact h
  | cons e events ih =>
    have hstep := ih (issued_step h e)
    rw [run_cons, List.countP_cons]
    have hcount : n + (if e.StartedBy q then 1 else 0) + events.countP (fun e => decide (e.StartedBy q))
        = n + (events.countP (fun e => decide (e.StartedBy q))
          + if decide (e.StartedBy q) = true then 1 else 0) := by
      by_cases he : e.StartedBy q
      · rw [if_pos he, if_pos (decide_eq_true he)]
        omega
      · rw [if_neg he, if_neg (by simp [he])]
        omega
    rw [← hcount]
    exact hstep

/-- New pipelines over a store. -/
def new (options : Nat → FetchOptions) (rows : RowStore.Rows) : World := fresh (fun q => .new (options q)) rows

theorem issued_new (options : Nat → FetchOptions) (rows : RowStore.Rows) (q : Nat) :
    Issued q 0 (new options rows) := ⟨rfl, rfl⟩

theorem latest?_new (options : Nat → FetchOptions) (rows : RowStore.Rows) (q : Nat) (key : String) :
    (new options rows).latest? q key = none := rfl

/-- Below the bound of the counter a token has the number that it was made from. -/
theorem number_ofNat {n : Nat} (h : n < 2 ^ 64) : Token.number ⟨UInt64.ofNat n⟩ = n :=
  UInt64.toNat_ofNat_of_lt' h

/-- The tokens of fewer than 2 ^ 64 starts grow. -/
theorem tokensOf_pairwise {q n : Nat} {w : World} (h : Issued q n w) (hn : n < 2 ^ 64) :
    (w.tokensOf q).Pairwise fun s t => s.number < t.number := by
  rw [h.tokens, List.pairwise_map]
  refine List.Pairwise.imp_of_mem ?_ List.pairwise_lt_range
  intro i j hi hj hij
  rw [List.mem_range] at hi hj
  rw [number_ofNat (by omega), number_ofNat (by omega)]
  omega

/-- The next token of fewer than 2 ^ 64 starts is greater than all that were issued. -/
theorem number_lt_nextToken {q n : Nat} {w : World} (h : Issued q n w) (hn : n + 1 < 2 ^ 64) {token : Token}
    (htoken : token ∈ w.tokensOf q) : token.number < (w.nextToken q).number := by
  rw [h.tokens] at htoken
  obtain ⟨i, hi, rfl⟩ := List.mem_map.1 htoken
  rw [List.mem_range] at hi
  rw [h.next, number_ofNat hn, number_ofNat (by omega)]
  omega

/-- Issued tokens stay issued. -/
theorem tokensOf_run {q : Nat} {w : World} {token : Token} (h : token ∈ w.tokensOf q) (events : List Event) :
    token ∈ (w.run events).tokensOf q := by
  induction events generalizing w with
  | nil => exact h
  | cons e events ih =>
    apply ih
    unfold tokensOf at h ⊢
    cases e with
    | start owner request =>
      show token ∈ ((w.start owner request).issued.filter _).map _
      rw [issued_start, List.filter_append, List.map_append]
      exact List.mem_append_left _ h
    | arrival place answer =>
      show token ∈ ((w.arrive place answer).issued.filter _).map _
      rw [issued_arrive]
      exact h
    | forget owner id => exact h

/-! ## §5. The order of tokens -/

/-- A token is the latest of an id if it is the one in the book under the id without its white space. -/
theorem isLatest_iff (w : World) (q : Nat) (id : String) (token : Token) :
    (w.pipelines q).isLatest id token = true ↔ w.latest? q (Text.trimmed id) = some token := beq_iff_eq

/-- A request that has ended tells its token to the host. -/
theorem outcome_token_step {w : World} (h : ∀ u ∈ w.requests, ∀ o, u.stage = .ended o → o.token = u.token) (e : Event) :
    ∀ u ∈ (w.step e).requests, ∀ o, u.stage = .ended o → o.token = u.token := by
  cases e with
  | start owner request =>
    show ∀ u ∈ (w.start owner request).requests, _
    rw [start_eq]
    intro u hu o ho
    rcases List.mem_append.1 hu with hu | hu
    · exact h u hu o ho
    · rw [List.mem_singleton] at hu
      subst hu
      unfold launched at ho ⊢
      simp only at ho
      split at ho
      next result _ =>
        rw [← Stage.ended.inj ho]
        rfl
      next => cases ho
  | arrival place answer =>
    show ∀ u ∈ (w.arrive place answer).requests, _
    unfold arrive
    split
    next owner token request hu =>
      -- one entry is replaced, and it keeps the token that its request was given
      intro u hmem o ho
      rcases List.mem_or_eq_of_mem_set hmem with hmem | rfl
      · exact h u hmem o ho
      · rw [← Stage.ended.inj ho]
        rfl
    next => exact h
  | forget owner id => exact h

/-- An outcome carries the token that its request was issued. -/
theorem outcome_token_run {w : World} (h : ∀ u ∈ w.requests, ∀ o, u.stage = .ended o → o.token = u.token)
    (events : List Event) : ∀ u ∈ (w.run events).requests, ∀ o, u.stage = .ended o → o.token = u.token := by
  induction events generalizing w with
  | nil => exact h
  | cons e events ih => exact ih (outcome_token_step h e)

/-- The latest token of an id is the one of the last start for it, if the id was not forgotten since. -/
theorem latest?_new_run_iff (options : Nat → FetchOptions) (rows : RowStore.Rows) (events : List Event) (q : Nat)
    (key : String) (token : Token) :
    ((new options rows).run events).latest? q key = some token
      ↔ ∃ before request after, events = before ++ .start q request :: after ∧ Text.trimmed request.id = key
          ∧ ((new options rows).run before).nextToken q = token
          ∧ ∀ d ∈ after, ¬(d.Starts q key ∨ d.Forgets q key) := by
  rw [latest?_run_iff, latest?_new]
  constructor
  · rintro (⟨before, e, after, hsplit, ⟨hstarts, htoken⟩, hafter⟩ | ⟨hnone, -⟩)
    · cases e with
      | start owner request =>
        obtain ⟨rfl, hkey⟩ := hstarts
        exact ⟨before, request, after, hsplit, hkey, htoken, hafter⟩
      | arrival place answer => exact hstarts.elim
      | forget owner id => exact hstarts.elim
    · cases hnone
  · rintro ⟨before, request, after, hsplit, hkey, htoken, hafter⟩
    exact Or.inl ⟨before, _, after, hsplit, ⟨⟨rfl, hkey⟩, htoken⟩, hafter⟩

/-- The ids that have a latest token are those that were started and not forgotten since. -/
theorem isSome_latest?_new_run_iff (options : Nat → FetchOptions) (rows : RowStore.Rows) (events : List Event)
    (q : Nat) (key : String) :
    (((new options rows).run events).latest? q key).isSome = true
      ↔ ∃ before request after, events = before ++ .start q request :: after ∧ Text.trimmed request.id = key
          ∧ ∀ d ∈ after, ¬d.Forgets q key := by
  rw [isSome_latest?_run_iff, latest?_new]
  constructor
  · rintro (⟨before, e, after, hsplit, hstarts, hafter⟩ | ⟨hnone, -⟩)
    · cases e with
      | start owner request =>
        obtain ⟨rfl, hkey⟩ := hstarts
        exact ⟨before, request, after, hsplit, hkey, hafter⟩
      | arrival place answer => exact hstarts.elim
      | forget owner id => exact hstarts.elim
    · cases hnone
  · rintro ⟨before, request, after, hsplit, hkey, hafter⟩
    exact Or.inl ⟨before, _, after, hsplit, ⟨rfl, hkey⟩, hafter⟩

/-- A token that was issued and is not the latest of an id never is the latest of it again. -/
theorem latest?_run_ne {q n : Nat} {w : World} (h : Issued q n w) (events : List Event)
    (hn : n + events.countP (fun e => e.StartedBy q) < 2 ^ 64) {key : String} {token : Token}
    (htoken : token ∈ w.tokensOf q) (hnot : w.latest? q key ≠ some token) :
    (w.run events).latest? q key ≠ some token := by
  rw [Ne, latest?_run_iff]
  rintro (⟨before, e, after, rfl, ⟨hstarts, hnext⟩, -⟩ | ⟨hlatest, -⟩)
  · -- the token would have been issued a second time
    have hstarted : e.StartedBy q := by
      cases e with
      | start owner request => exact hstarts.1
      | arrival place answer => exact hstarts.elim
      | forget owner id => exact hstarts.elim
    rw [List.countP_append, List.countP_cons, if_pos (decide_eq_true hstarted)] at hn
    have hlt := number_lt_nextToken (issued_run h before) (by omega) (tokensOf_run htoken before)
    rw [hnext] at hlt
    exact Nat.lt_irrefl _ hlt
  · exact hnot hlatest

/--
**Tokens tell which request for an id is the latest.** Take any pipelines over one store and any events in any order,
fewer than 2 ^ 64 of which start a request of one of the pipelines.

The tokens of its requests grow in the order of the starts, and an outcome carries the token of its request. A token
is the latest of an id, white space around it apart, just when it belongs to the last request that was started for the
trimmed id and the trimmed id was not forgotten after that start; so there is at most one. An answer that arrives
changes no book. A token that was issued and is not the latest of an id, because another superseded it or the id was
forgotten, never is again. The ids that are tracked are the trimmed ids that were started and not forgotten since.
-/
theorem tokens_in_order (options : Nat → FetchOptions) (rows : RowStore.Rows) (q : Nat) (events : List Event)
    (hcount : events.countP (fun e => e.StartedBy q) < 2 ^ 64) :
    (((new options rows).run events).tokensOf q).Pairwise (fun s t => s.number < t.number)
      ∧ (∀ u ∈ ((new options rows).run events).requests, ∀ outcome, u.stage = .ended outcome → outcome.token = u.token)
      ∧ (∀ id token, (((new options rows).run events).pipelines q).isLatest id token = true ↔
          ∃ before request after, events = before ++ .start q request :: after
            ∧ Text.trimmed request.id = Text.trimmed id
            ∧ (∃ u, ((new options rows).run events).requests[((new options rows).run before).requests.length]? = some u
                ∧ u.token = token)
            ∧ ∀ d ∈ after, ¬(d.Starts q (Text.trimmed id) ∨ d.Forgets q (Text.trimmed id)))
      ∧ (∀ id s t, (((new options rows).run events).pipelines q).isLatest id s = true →
          (((new options rows).run events).pipelines q).isLatest id t = true → s = t)
      ∧ (∀ place answer, (((new options rows).run events).step (.arrival place answer)).pipelines
          = ((new options rows).run events).pipelines)
      ∧ (∀ before after id token, events = before ++ after → token ∈ ((new options rows).run before).tokensOf q →
          (((new options rows).run before).pipelines q).isLatest id token = false →
          (((new options rows).run events).pipelines q).isLatest id token = false)
      ∧ ∃ ids : List String, ids.Nodup ∧ ids.length = (((new options rows).run events).pipelines q).tokens.tracked
          ∧ ∀ id, id ∈ ids ↔ ∃ before request after, events = before ++ .start q request :: after
            ∧ Text.trimmed request.id = id ∧ ∀ d ∈ after, ¬d.Forgets q id := by
  have hissued := issued_new options rows q
  refine ⟨?_, ?_, ?_, ?_, ?_, ?_, ?_⟩
  · exact tokensOf_pairwise (issued_run hissued events) (by omega)
  · exact outcome_token_run (fun u hu => absurd hu List.not_mem_nil) events
  · intro id token
    rw [isLatest_iff, latest?_new_run_iff]
    -- the token of the start is the one that stands in the entry of its request
    have hentry : ∀ before request after, events = before ++ .start q request :: after →
        (((new options rows).run before).nextToken q = token
          ↔ ∃ u, ((new options rows).run events).requests[((new options rows).run before).requests.length]? = some u
            ∧ u.token = token) := by
      intro before request after hsplit
      have hrequest := requests_run_start ((new options rows).run before) q request after
      rw [← run_cons, ← run_append, ← hsplit] at hrequest
      constructor
      · intro htoken
        exact ⟨_, hrequest, htoken⟩
      · rintro ⟨u, hu, htoken⟩
        rw [← htoken, ← Option.some.inj (hrequest.symm.trans hu)]
        rfl
    constructor
    · rintro ⟨before, request, after, hsplit, hkey, htoken, hafter⟩
      exact ⟨before, request, after, hsplit, hkey, (hentry _ _ _ hsplit).1 htoken, hafter⟩
    · rintro ⟨before, request, after, hsplit, hkey, htoken, hafter⟩
      exact ⟨before, request, after, hsplit, hkey, (hentry _ _ _ hsplit).2 htoken, hafter⟩
  · intro id s t hs ht
    rw [isLatest_iff] at hs ht
    exact Option.some.inj (hs.symm.trans ht)
  · intro place answer
    exact pipelines_arrive _ place answer
  · -- the rest of the run starts fewer than 2 ^ 64 requests, counted from those before it
    intro before after id token hsplit htoken hnot
    have hne : ((new options rows).run before).latest? q (Text.trimmed id) ≠ some token := by
      intro h
      rw [(isLatest_iff _ q id token).2 h] at hnot
      cases hnot
    rw [hsplit, List.countP_append] at hcount
    have hfinal := latest?_run_ne (issued_run hissued before) after (by omega) htoken hne
    rw [hsplit, run_append, Bool.eq_false_iff]
    exact fun h => hfinal ((isLatest_iff _ q id token).1 h)
  · -- the names of the book are the ids that are tracked, and a table has each name once
    refine ⟨(((new options rows).run events).pipelines q).tokens.latest.names,
      (((new options rows).run events).pipelines q).tokens.latest.nodup, Table.length_names _, ?_⟩
    intro id
    rw [Table.mem_names_iff]
    exact isSome_latest?_new_run_iff options rows events q id

/-- Two requests for one id: the token of the first is superseded, and the arrival of its answer changes nothing. -/
theorem tokens_in_order_superseded :
    let request : Request := ⟨"http://a", none, none, false, false⟩
    let respelled : Request := ⟨" http://a\n", none, none, false, false⟩
    let starts : List Event := [.start 0 request, .start 0 respelled]
    let answers : List Event := [.arrival 0 (.error (.lost ""))]
    (starts ++ answers).countP (fun e => e.StartedBy 0) < 2 ^ 64
      ∧ (((new (fun _ => .usual) .empty).run (starts ++ answers)).pipelines 0).isLatest "http://a " ⟨1⟩ = false
      ∧ ∀ token, (((new (fun _ => .usual) .empty).run (starts ++ answers)).pipelines 0).isLatest "http://a" token = true →
          token = ⟨2⟩ := by
  intro request respelled starts answers
  have hcount : (starts ++ answers).countP (fun e => e.StartedBy 0) < 2 ^ 64 := by decide
  obtain ⟨-, -, -, hunique, -, hnever, -⟩ := tokens_in_order (fun _ => .usual) .empty 0 (starts ++ answers) hcount
  refine ⟨hcount, ?_, ?_⟩
  · have hissued : (⟨1⟩ : Token) ∈ ((new (fun _ => .usual) .empty).run starts).tokensOf 0 := by decide +kernel
    have hsuperseded : (((new (fun _ => .usual) .empty).run starts).pipelines 0).isLatest "http://a " ⟨1⟩ = false := by
      decide +kernel
    exact hnever starts answers "http://a " ⟨1⟩ rfl hissued hsuperseded
  · intro token htoken
    have hlatest : (((new (fun _ => .usual) .empty).run (starts ++ answers)).pipelines 0).isLatest "http://a" ⟨2⟩ = true := by
      decide +kernel
    exact hunique "http://a" token ⟨2⟩ htoken hlatest

end World
end HomeWidget
