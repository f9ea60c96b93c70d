import Phantom.Auth.Uiaa

namespace Phantom.Auth

open Phantom.Lib Phantom.Matrix Phantom.Accounts Function

variable {uiaa : Uiaa} {key : SessionKey} {uiaainfo : UiaaInfo}

/-- Every stage recorded in the session has been proven under the key of the session. -/
structure Backed (uiaa : Uiaa) (key : SessionKey) (uiaainfo : UiaaInfo) : Prop where
  session : uiaainfo.session = some key.session
  proven : ∀ stage ∈ uiaainfo.completed, (key, stage) ∈ uiaa.proven

def WellBacked (uiaa : Uiaa) : Prop :=
  ∀ key uiaainfo, uiaa.userdevicesessionidUiaainfo key = some uiaainfo → Backed uiaa key uiaainfo

theorem init_wellBacked : WellBacked Uiaa.init := nofun

theorem updateUiaaSession_spec (key : SessionKey) (uiaainfo : Option UiaaInfo)
    (backed : ∀ stored, uiaainfo = some stored → Backed uiaa key stored) (well : WellBacked uiaa) :
    Action.wp (updateUiaaSession key uiaainfo) uiaa
      (fun _ after => WellBacked after ∧ after.proven = uiaa.proven) (fun _ _ => False) := by
  refine ⟨?_, rfl⟩
  intro other stored found
  change update uiaa.userdevicesessionidUiaainfo key uiaainfo other = some stored at found
  by_cases same : other = key
  · subst same
    rw [update_self] at found
    obtain ⟨session, proven⟩ := backed stored found
    exact ⟨session, proven⟩
  · rw [update_of_ne same] at found
    obtain ⟨session, proven⟩ := well other stored found
    exact ⟨session, proven⟩

structure Concluded (key : SessionKey) (uiaainfo : UiaaInfo) (answer : Bool × UiaaInfo) (after : Uiaa) :
    Prop where
  wellBacked : WellBacked after
  backed : answer.1 = true → Backed after key answer.2
  complete : answer.1 = true → answer.2.isComplete = true
  flows : answer.1 = true → answer.2.flows = uiaainfo.flows

theorem Backed.congr {before after : Uiaa} (backed : Backed before key uiaainfo) (same : after.proven = before.proven) :
    Backed after key uiaainfo := ⟨backed.session, by rw [same]; exact backed.proven⟩

theorem Backed.withoutEmail (backed : Backed uiaa key uiaainfo) : Backed uiaa key uiaainfo.withoutEmail where
  session := backed.session
  proven stage mem := backed.proven stage (List.mem_of_mem_filter mem)

theorem conclude_spec (mode : EmailIdentityMode) (well : WellBacked uiaa) (backed : Backed uiaa key uiaainfo) :
    Action.wp (conclude key mode uiaainfo) uiaa (Concluded key uiaainfo) (fun _ _ => False) := by
  unfold conclude
  split
  · rename_i complete
    refine Action.wp_seq (updateUiaaSession_spec key _ ?_ well) ?_ fun _ _ impossible => impossible
    · grind
    · intro _ after written
      exact ⟨written.1, fun _ => backed.congr written.2, fun _ => complete, fun _ => rfl⟩
  · refine Action.wp_seq (updateUiaaSession_spec key _ ?_ well) ?_ (fun _ _ impossible => impossible)
    · intro stored kept
      cases kept
      exact backed
    · intro _ after written
      exact ⟨written.1, nofun, nofun, nofun⟩

theorem settle_spec (services : Services) (auth : AuthData) (mode : EmailIdentityMode) (well : WellBacked uiaa)
    (backed : Backed uiaa key uiaainfo) :
    Action.wp (settle services key auth mode uiaainfo) uiaa (Concluded key uiaainfo)
      (fun _ after => WellBacked after) := by
  have concluded : Action.wp (conclude key mode uiaainfo) uiaa (Concluded key uiaainfo)
      (fun _ after => WellBacked after) :=
    Action.wp_mono (conclude_spec mode well backed) (fun _ _ holds => holds) fun _ _ => False.elim
  unfold settle
  split
  · refine Action.wp_bind.mpr (Action.wp_lift ?_ ?_)
    · intro refreshed _
      cases refreshed with
      | true => exact concluded
      | false =>
        refine Action.wp_seq (updateUiaaSession_spec key _ ?_ well) ?_ fun _ _ => False.elim
        · grind [Backed.withoutEmail]
        · intro _ after written
          exact ⟨written.1, nofun, nofun, nofun⟩
    · intro _ _
      exact well
  · exact concluded

theorem prove_spec (stage : AuthType) (well : WellBacked uiaa) (backed : Backed uiaa key uiaainfo) :
    Action.wp (prove key stage) uiaa (fun _ after => WellBacked after ∧
        Backed after key { uiaainfo with completed := uiaainfo.completed ++ [stage] }) (fun _ _ => False) := by
  refine ⟨?_, backed.session, ?_⟩
  · intro other stored found
    have before := well other stored found
    exact ⟨before.session, fun stage mem => List.mem_cons_of_mem _ (before.proven stage mem)⟩
  · grind [Backed.proven]

/-- The information a call works on: the stored one of the session it names, or the caller's own. -/
inductive Source (uiaa : Uiaa) (user : UserId) (device : DeviceId) (uiaainfo : UiaaInfo) :
    Option String → UiaaInfo → Prop where
  | stored {session : String} {found : UiaaInfo}
      (stored : uiaa.userdevicesessionidUiaainfo ⟨user, device, session⟩ = some found) :
      Source uiaa user device uiaainfo (some session) found
  | own : Source uiaa user device uiaainfo none uiaainfo

theorem currentInfo_spec (uiaa : Uiaa) (user : UserId) (dev : DeviceId) (uiaainfo : UiaaInfo)
    (session : Option String) : Action.wp (currentInfo user dev uiaainfo session) uiaa
      (fun found after => after = uiaa ∧ Source uiaa user dev uiaainfo session found)
      (fun _ after => after = uiaa) := by
  cases session with
  | none => exact ⟨rfl, .own⟩
  | some session =>
    refine Action.wp_bind.mpr (Action.wp_lift ?_ fun _ _ => rfl)
    intro found loaded
    exact ⟨rfl, .stored (Outcome.ofOption_eq_ok.mp loaded)⟩

theorem Source.backed {user : UserId} {dev : DeviceId} {flows : List Flow}
    {session : Option String} {found : UiaaInfo} (random : String) (well : WellBacked uiaa)
    (source : Source uiaa user dev (.new flows) session found) : Backed uiaa ⟨user, dev, found.session.getD random⟩
      { found with session := some (found.session.getD random) } := by
  cases source with
  | own => exact ⟨rfl, nofun⟩
  | stored stored =>
    have backed := well _ _ stored
    refine ⟨rfl, ?_⟩
    rw [backed.session]
    exact backed.proven

/-- What an answer of `try_auth` says: every stage of some flow of the information it worked on has been
    proven in the session. -/
structure Granted (uiaa : Uiaa) (user : UserId) (device : DeviceId) (uiaainfo : UiaaInfo)
    (session : Option String) (answer : Bool × UiaaInfo) (after : Uiaa) : Prop where
  wellBacked : WellBacked after
  granted : answer.1 = true → ∃ used found, Source uiaa user device uiaainfo session found ∧
    Backed after ⟨user, device, used⟩ answer.2 ∧ answer.2.isComplete = true ∧ answer.2.flows = found.flows

theorem tryAuthInner_spec (services : Services) (user : UserId) (dev : DeviceId)
    (auth : AuthData) (flows : List Flow) (mode : EmailIdentityMode) (well : WellBacked uiaa) :
    Action.wp (tryAuthInner services user dev auth (.new flows) mode) uiaa
      (Granted uiaa user dev (.new flows) auth.session) (fun _ after => WellBacked after) := by
  have unchanged : ∀ (failure : Failure UiaaError) (after : Uiaa), after = uiaa → WellBacked after := by
    intro _ after same
    rw [same]
    exact well
  refine Action.wp_seq (currentInfo_spec uiaa user dev (.new flows) auth.session) ?_ unchanged
  rintro found _ ⟨rfl, source⟩
  have backed := source.backed services.random well
  refine Action.wp_bind.mpr (Action.wp_lift ?_ fun failure _ => unchanged failure _ rfl)
  intro verdict _
  cases verdict with
  | completes stage =>
    refine Action.wp_seq (prove_spec stage well backed) ?_ fun _ _ => False.elim
    rintro _ after ⟨wellAfter, backedAfter⟩
    refine Action.wp_mono (settle_spec services auth mode wellAfter backedAfter) ?_ fun _ _ holds => holds
    intro answer last concluded
    exact ⟨concluded.wellBacked, fun granted => ⟨_, found, source, concluded.backed granted,
      concluded.complete granted, concluded.flows granted⟩⟩
  | changesNothing =>
    refine Action.wp_mono (settle_spec services auth mode well backed) ?_ fun _ _ holds => holds
    intro answer last concluded
    exact ⟨concluded.wellBacked, fun granted => ⟨_, found, source, concluded.backed granted,
      concluded.complete granted, concluded.flows granted⟩⟩
  | refused message => exact ⟨well, nofun⟩

namespace UiaaRequest

def asks : UiaaRequest → Option (UserId × DeviceId × Option String × List Flow)
  | .tryAuth _ user device auth flows => some (user, device, auth.session, flows)
  | .tryAuthRegistration _ user device auth flows => some (user, device, auth.session, flows)
  | .create .. | .delete _ => none

theorem perform_spec {uiaa : Uiaa} (req : UiaaRequest) (well : WellBacked uiaa) : Action.wp req.perform uiaa
      (fun answer after => WellBacked after ∧ ∀ user dev session flows, req.asks = some (user, dev, session, flows) →
        ∀ verdict, answer = some verdict → Granted uiaa user dev (.new flows) session verdict after)
      (fun _ after => WellBacked after) := by
  cases req with
  | create user dev flows session =>
    refine Action.wp_seq (updateUiaaSession_spec ⟨user, dev, session⟩ _ ?_ well) ?_ fun _ _ => False.elim
    · intro stored kept
      cases kept
      exact ⟨rfl, nofun⟩
    · intro _ after written
      exact ⟨written.1, nofun⟩
  | tryAuth services user dev auth flows =>
    refine Action.wp_seq (tryAuthInner_spec services user dev auth flows .validate well) ?_ fun _ _ holds => holds
    rintro answer after granted
    refine ⟨granted.wellBacked, ?_⟩
    rintro _ _ _ _ ⟨⟩ _ ⟨⟩
    exact granted
  | tryAuthRegistration services user dev auth flows =>
    refine Action.wp_seq (tryAuthInner_spec services user dev auth flows .claim well) ?_ fun _ _ holds => holds
    rintro answer after granted
    refine ⟨granted.wellBacked, ?_⟩
    rintro _ _ _ _ ⟨⟩ _ ⟨⟩
    exact granted
  | delete key =>
    refine Action.wp_seq (updateUiaaSession_spec key none nofun well) ?_ fun _ _ => False.elim
    intro _ after written
    exact ⟨written.1, nofun⟩

/-- The session the client names was created for flows that ask for no less than the caller's. -/
def FromOwnFlows (uiaa : Uiaa) (request : UiaaRequest) : Prop :=
  ∀ user device session flows, request.asks = some (user, device, some session, flows) →
    ∀ stored, uiaa.userdevicesessionidUiaainfo ⟨user, device, session⟩ = some stored →
      ∀ flow ∈ stored.flows, ∃ own ∈ flows, own ⊆ flow

end UiaaRequest

theorem run_wellBacked {requests : List UiaaRequest}
    (run : Run UiaaStep Uiaa.init requests uiaa) : WellBacked uiaa := by
  refine Run.invariant WellBacked ?_ run init_wellBacked
  rintro before req _ well rfl
  have spec := req.perform_spec well
  grind [Action.wp]

theorem UiaaInfo.isComplete_iff : uiaainfo.isComplete = true ↔ ∃ flow ∈ uiaainfo.flows, flow ⊆ uiaainfo.completed := by
  simp [UiaaInfo.isComplete, List.subset_def]

/-- An endpoint is told that its user is authenticated only after all stages of one of its own flows
    have been proven in the session. -/
theorem own_flow_proven {requests : List UiaaRequest} {uiaa after : Uiaa} {request : UiaaRequest}
    {user : UserId} {device : DeviceId} {session : Option String} {flows : List Flow} {uiaainfo : UiaaInfo}
    (run : Run UiaaStep Uiaa.init requests uiaa) (condition : request.FromOwnFlows uiaa)
    (asks : request.asks = some (user, device, session, flows))
    (answered : request.perform uiaa = (.ok (some (true, uiaainfo)), after)) :
    ∃ used, uiaainfo.session = some used ∧ ∃ flow ∈ flows, ∀ stage ∈ flow,
      stage ∈ uiaainfo.completed ∧ (⟨user, device, used⟩, stage) ∈ after.proven := by
  have spec := request.perform_spec (run_wellBacked run)
  unfold Action.wp at spec
  rw [answered] at spec
  obtain ⟨used, found, source, backed, complete, same⟩ := (spec.2 user device session flows asks _ rfl).granted rfl
  obtain ⟨flow, member, included⟩ := UiaaInfo.isComplete_iff.mp complete
  have own : ∃ own ∈ flows, own ⊆ flow := by
    rw [same] at member
    cases source with
    | own => exact ⟨flow, member, List.Subset.refl flow⟩
    | stored stored => exact condition user device _ flows asks found stored flow member
  obtain ⟨own, ofCaller, smaller⟩ := own
  refine ⟨used, backed.session, own, ofCaller, ?_⟩
  grind [Backed.proven]

/-- Whichever endpoint created the session, success means that all stages of one of its flows were proven in it, and by
    the user and on the device of the call. -/
theorem success_proven_by_caller {requests : List UiaaRequest} {after : Uiaa} {request : UiaaRequest} {user : UserId}
    {device : DeviceId} {session : Option String} {flows : List Flow} (run : Run UiaaStep Uiaa.init requests uiaa)
    (asks : request.asks = some (user, device, session, flows))
    (answered : request.perform uiaa = (.ok (some (true, uiaainfo)), after)) : ∃ used, uiaainfo.session = some used ∧
      ∃ flow ∈ uiaainfo.flows, ∀ stage ∈ flow, (⟨user, device, used⟩, stage) ∈ after.proven := by
  have spec := request.perform_spec (run_wellBacked run)
  rw [Action.wp, answered] at spec
  obtain ⟨used, _, _, backed, complete, _⟩ := (spec.2 user device session flows asks _ rfl).granted rfl
  obtain ⟨flow, member, included⟩ := UiaaInfo.isComplete_iff.mp complete
  exact ⟨used, backed.session, flow, member, fun stage mem => backed.proven stage (included mem)⟩

namespace Sample

def services : Services where
  parseWithServerName name := some ⟨"@" ++ name ++ ":phantom"⟩
  checkSessionPassword _ _ := .ok ()
  verifyPassword _ password := password = "correct horse"
  tryConsume _ := false
  sessionValidated _ := false
  claimValidated _ _ := .ok false
  refreshClaim _ := .ok false
  random := "fresh"

def serverUser : UserId := ⟨"@:phantom"⟩

def opened : UiaaRequest :=
  .create serverUser ⟨""⟩ (registrationFlows false false) "session"

/-- A session of the time when registration asked for nothing still registers when a token is asked for. -/
theorem dummy_session_needs_no_token : ∃ uiaa, Run UiaaStep Uiaa.init [opened] uiaa ∧ ∃ uiaainfo after,
      (UiaaRequest.tryAuth services serverUser ⟨""⟩ (.dummy (some "session"))
        (registrationFlows true false)).perform uiaa = (.ok (some (true, uiaainfo)), after) ∧
      registrationFlows true false = [[.registrationToken]] ∧ .registrationToken ∉ uiaainfo.completed := by
  refine ⟨_, .cons rfl (.nil _), ⟨[[.dummy]], [.dummy], some "session", none⟩, _, rfl, rfl, ?_⟩
  decide

def skipped : UiaaRequest := .tryAuth services serverUser ⟨""⟩ (.dummy (some "session")) (registrationFlows true false)

theorem success_proven_by_dummy : ∃ used, some "session" = some used ∧ ∃ flow ∈ [[AuthType.dummy]], ∀ stage ∈ flow,
    (⟨serverUser, ⟨""⟩, used⟩, stage) ∈ (skipped.perform (opened.perform Uiaa.init).2).2.proven :=
  @success_proven_by_caller _ ⟨_, [.dummy], _, none⟩ [opened] _ skipped _ _ _ _ (.cons rfl (.nil _)) rfl rfl

def changing (password : String) (session : Option String) : UiaaRequest :=
  .tryAuth services ⟨"@alice:phantom"⟩ ⟨"PHONE"⟩ (.password (.matrix "alice") password session) (accountFlows true)

def requested : UiaaRequest := .create ⟨"@alice:phantom"⟩ ⟨"PHONE"⟩ (accountFlows true) "session"

theorem own_flow_proven_password : ∃ uiaainfo after,
      (changing "correct horse" (some "session")).perform (requested.perform Uiaa.init).2 =
        (.ok (some (true, uiaainfo)), after) ∧
      ∃ used, uiaainfo.session = some used ∧ ∃ flow ∈ accountFlows true, ∀ stage ∈ flow, stage ∈ uiaainfo.completed ∧
          (⟨⟨"@alice:phantom"⟩, ⟨"PHONE"⟩, used⟩, stage) ∈ after.proven := by
  have run : Run UiaaStep Uiaa.init [requested] (requested.perform Uiaa.init).2 := .cons rfl (.nil _)
  have condition : (changing "correct horse" (some "session")).FromOwnFlows (requested.perform Uiaa.init).2 := by
    rintro _ _ _ _ ⟨⟩ stored found flow member
    cases found
    exact ⟨flow, member, List.Subset.refl flow⟩
  have answered : (changing "correct horse" (some "session")).perform (requested.perform Uiaa.init).2 =
      (.ok (some (true, ⟨[[.password]], [.password], some "session", none⟩)), _) := rfl
  exact ⟨_, _, answered, own_flow_proven run condition rfl answered⟩

end Sample

end Phantom.Auth
