import Phantom.Lib.Action

namespace Phantom.Lib.Action

variable {σ τ ε δ α β κ : Type}
variable {Returned : α → σ → Prop} {Failed : Failure δ → σ → Prop} {step : β → α → Action σ ε β}

/-- A call on one part of the store, its errors turned into those of the whole. -/
def zoom (part : σ → τ) (put : τ → σ → σ) (error : ε → δ) (action : Action τ ε α) : Action σ δ α := fun state =>
  let (outcome, after) := action (part state)
  (outcome.mapError (Failure.map error), put after state)

def mapErr (error : ε → δ) (action : Action σ ε α) : Action σ δ α := fun state =>
  let (outcome, after) := action state
  (outcome.mapError (Failure.map error), after)

variable {error : ε → δ}

theorem wp_mapErr {action : Action σ ε α} {s : σ}
    (spec : action.wp s Returned fun failure after => Failed (failure.map error) after) :
    (action.mapErr error).wp s Returned Failed := by
  unfold Action.wp at spec ⊢
  unfold mapErr
  cases ran : action s with
  | mk outcome after =>
    rw [ran] at spec
    cases outcome with
    | ok value | error failure => exact spec

theorem wp_zoom {part : σ → τ} {put : τ → σ → σ} {action : Action τ ε α} {s : σ}
    (spec : action.wp (part s) (fun value after => Returned value (put after s))
    (fun failure after => Failed (failure.map error) (put after s))) :
    (action.zoom part put error).wp s Returned Failed := by
  unfold Action.wp at spec ⊢
  unfold zoom
  cases ran : action (part s) with
  | mk outcome after =>
    rw [ran] at spec
    cases outcome with
    | ok value | error failure => exact spec

variable (Inv : List α → β → σ → Prop) {items : List α} {first : β}

theorem wp_foldlM_from {Failed : Failure ε → σ → Prop}
    (turn : ∀ done item held s, item ∈ items → Inv done held s → (step held item).wp s (Inv (done ++ [item])) Failed)
    {done : List α} {s : σ} (start : Inv done first s) :
    Action.wp (items.foldlM step first) s (Inv (done ++ items)) Failed := by
  induction items generalizing done first s with
  | nil =>
    rw [List.append_nil]
    exact start
  | cons item items ih =>
    apply wp_seq (turn done item first s List.mem_cons_self start)
    · grind
    · exact fun _ _ failed => failed

theorem wp_foldlM {Failed : Failure ε → σ → Prop}
    (turn : ∀ done item held s, item ∈ items → Inv done held s → (step held item).wp s (Inv (done ++ [item])) Failed)
    {s : σ} (start : Inv [] first s) : Action.wp (items.foldlM step first) s (Inv items) Failed :=
  wp_foldlM_from Inv turn start

/-- However the call ends, the view of the store is as it was. -/
def Keeps (view : σ → κ) (action : Action σ ε α) : Prop := ∀ state, view (action state).2 = view state

namespace Keeps

variable {view : σ → κ} {action : Action σ ε α}

theorem pure (value : α) : Keeps view (Pure.pure value : Action σ ε α) := fun _ => rfl

theorem get : Keeps view (Action.get : Action σ ε σ) := fun _ => rfl

theorem lift (outcome : Outcome ε α) : Keeps view (Action.lift outcome) := fun _ => rfl

theorem modify {change : σ → σ} (kept : ∀ s, view (change s) = view s) :
    Keeps view (Action.modify change : Action σ ε Unit) := kept

theorem bind {next : α → Action σ ε β} (first : Keeps view action) (second : ∀ value, Keeps view (next value)) :
    Keeps view (action >>= next) := by
  intro s
  have kept := first s
  simp only [Bind.bind]
  cases ran : action s with
  | mk outcome after =>
    rw [ran] at kept
    cases outcome with
    | ok value => exact (second value after).trans kept
    | error failure => exact kept

theorem attempt (kept : Keeps view action) : Keeps view action.attempt := by
  intro s
  have same := kept s
  grind [attempt]

variable {γ : Type}

theorem comp (kept : Keeps view action) (shown : κ → γ) : Keeps (fun s => shown (view s)) action :=
  fun s => congrArg shown (kept s)

variable {error : ε → δ}

theorem mapErr (kept : Keeps view action) : Keeps view (action.mapErr error) := kept

theorem unlessDone {done : Bool} {action : Action σ ε Unit} (kept : Keeps view action) :
    Keeps view (unlessDone done action) := by
  grind [pure, unlessDone]

/-- What a call on a part keeps of that part is kept of the whole, where putting the part back shows
    nothing else. -/
theorem zoom {part : σ → τ} {put : τ → σ → σ} {action : Action τ ε α} {inner : τ → γ} (kept : Keeps inner action)
    (shown : ∀ s after, inner after = inner (part s) → view (put after s) = view s) :
    Keeps view (action.zoom part put error) := fun s => shown s _ (kept (part s))

theorem foldlM {step : β → α → Action σ ε β} (kept : ∀ held item, Keeps view (step held item)) (items : List α)
    (first : β) : Keeps view (items.foldlM step first) := by
  induction items generalizing first with
  | nil => exact pure first
  | cons item items ih =>
    exact bind (kept first item) ih

theorem wp {seen : κ} (kept : Keeps view action) {s : σ} (same : view s = seen) :
    action.wp s (fun _ after => view after = seen) (fun _ after => view after = seen) := by
  have stays := kept s
  grind [wp]

theorem of_wp (spec : ∀ s, action.wp s (fun _ after => view after = view s)
    (fun _ after => view after = view s)) : Keeps view action := by
  intro s
  have same := spec s
  unfold Action.wp at same
  cases ran : action s with
  | mk outcome after =>
    rw [ran] at same
    cases outcome with
    | ok value | error failure => exact same

end Keeps

/-- From the state the call gives back no other errors. -/
def ErrsAt (allowed : ε → Prop) (action : Action σ ε α) (state : σ) : Prop :=
  ∀ error, (action state).1 = .fail error → allowed error

theorem ErrsAt.bind {allowed : ε → Prop} {action : Action σ ε α} {next : α → Action σ ε β} {s : σ}
    (first : ErrsAt allowed action s)
    (second : ∀ value after, action s = (.ok value, after) → ErrsAt allowed (next value) after) :
    ErrsAt allowed (action >>= next) s := by
  intro error failed
  simp only [Bind.bind] at failed
  cases ran : action s with
  | mk outcome after =>
    rw [ran] at failed
    cases outcome with
    | ok value => exact second value after ran error failed
    | error failure =>
      cases failed
      exact first error (congrArg Prod.fst ran)

def ErrsOnly (allowed : ε → Prop) (action : Action σ ε α) : Prop := ∀ state, ErrsAt allowed action state

abbrev Never (action : Action σ ε α) : Prop := ErrsOnly (fun _ => False) action

namespace ErrsOnly

variable {allowed : ε → Prop} {action : Action σ ε α}

theorem pure (value : α) : ErrsOnly allowed (Pure.pure value : Action σ ε α) := fun _ _ => nofun

theorem get : ErrsOnly allowed (Action.get : Action σ ε σ) := fun _ _ => nofun

theorem modify (change : σ → σ) : ErrsOnly allowed (Action.modify change : Action σ ε Unit) := fun _ _ => nofun

theorem lift {outcome : Outcome ε α} (only : ∀ error, outcome = .fail error → allowed error) :
    ErrsOnly allowed (Action.lift outcome : Action σ ε α) := fun _ => only

theorem attempt (action : Action σ ε α) : ErrsOnly allowed action.attempt := by
  intro s error failed
  grind [attempt, Outcome.fail]

theorem bind {next : α → Action σ ε β} (first : ErrsOnly allowed action)
    (second : ∀ value, ErrsOnly allowed (next value)) : ErrsOnly allowed (action >>= next) :=
  fun s => .bind (first s) fun value after _ => second value after

theorem mono {more : ε → Prop} (only : ErrsOnly allowed action) (weaker : ∀ error, allowed error → more error) :
    ErrsOnly more action := fun s error failed => weaker error (only s error failed)

theorem zoom {part : σ → τ} {put : τ → σ → σ} {error : ε → δ} {allowed : δ → Prop} {action : Action τ ε α}
    (only : ErrsOnly (fun inner => allowed (error inner)) action) :
    ErrsOnly allowed (action.zoom part put error) := by
  intro s outer failed
  simp only [Action.zoom] at failed
  cases ran : (action (part s)).1 with
  | ok value =>
    rw [ran] at failed
    cases failed
  | error failure =>
    rw [ran] at failed
    cases failure with
    | err inner =>
      cases failed
      exact only (part s) inner ran
    | panic message | unfinished => cases failed

end ErrsOnly

def KeepsOnErr (view : σ → κ) (action : Action σ ε α) : Prop :=
  ∀ state error, (action state).1 = .fail error → view (action state).2 = view state

namespace KeepsOnErr

variable {view : σ → κ} {action : Action σ ε α}
variable {next : α → Action σ ε β}

theorem of_never (never : Never action) : KeepsOnErr view action := fun s error failed => (never s error failed).elim

theorem bind (first : Keeps view action)
    (second : ∀ value, KeepsOnErr view (next value)) : KeepsOnErr view (action >>= next) := by
  intro s error failed
  have kept := first s
  simp only [Bind.bind] at failed ⊢
  cases ran : action s with
  | mk outcome after =>
    rw [ran] at kept failed
    cases outcome with
    | ok value => exact (second value after error failed).trans kept
    | error failure => exact kept

end KeepsOnErr

def Ends (action : Action σ ε α) (state : σ) (Holds : σ → Prop) : Prop :=
  action.wp state (fun _ after => Holds after) fun failure after => (∃ error, failure = .err error) → Holds after

namespace Ends

variable {action : Action σ ε α} {s : σ} {Holds More : σ → Prop}
variable {next : α → Action σ ε β}

theorem mono (ends : Ends action s Holds) (more : ∀ after, Holds after → More after) : Ends action s More :=
  wp_mono ends (fun _ => more) fun _ after holds err => more after (holds err)

theorem of_keeps {view : σ → κ} (kept : Keeps view action) (holds : ∀ after, view after = view s → Holds after) :
    Ends action s Holds := wp_mono (kept.wp rfl) (fun _ => holds) fun _ after same _ => holds after same

theorem of_never (never : Never action) (spec : action.wp s (fun _ after => Holds after) fun _ _ => True) :
    Ends action s Holds := by
  rw [Ends, wp]
  rw [wp] at spec
  cases ran : action s with
  | mk outcome after =>
    rw [ran] at spec
    cases outcome with
    | ok value => exact spec
    | error failure =>
      rintro ⟨error, rfl⟩
      exact (never s error (congrArg Prod.fst ran)).elim

theorem bind {Middle : α → σ → Prop}
    (first : action.wp s Middle fun failure after => (∃ error, failure = .err error) → Holds after)
    (rest : ∀ value after, Middle value after → Ends (next value) after Holds) :
    Ends (action >>= next) s Holds := wp_seq first rest fun _ _ holds => holds

theorem after_keeps {view : σ → κ} {seen : κ} (kept : Keeps view action) (same : view s = seen)
    (early : ∀ after, view after = seen → Holds after)
    (rest : ∀ value after, view after = seen → Ends (next value) after Holds) : Ends (action >>= next) s Holds :=
  bind (wp_mono (kept.wp same) (fun _ _ same => same) fun _ after same _ => early after same) rest

theorem holds {outcome : Outcome ε α} {after : σ} (ends : Ends action s Holds)
    (ran : action s = (outcome, after)) (returned : (∃ value, outcome = .ok value) ∨ ∃ error, outcome = .fail error) :
    Holds after := by
  rw [Ends, Action.wp, ran] at ends
  rcases returned with ⟨value, rfl⟩ | ⟨error, rfl⟩
  · exact ends
  · exact ends ⟨error, rfl⟩

end Ends

end Phantom.Lib.Action
