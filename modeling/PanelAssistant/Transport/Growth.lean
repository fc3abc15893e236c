import PanelAssistant.Transport.Invariant

/-!
# What happened stays

No step takes a note back, makes a delivery another one's, resolves a future again or changes
the result of a call that is over.
-/

namespace PanelAssistant

open Library

/-- The later delivery is the earlier one, further on. -/
structure Delivery.Extends (d d' : Delivery) : Prop where
  session : d'.session = d.session
  commandId : d'.commandId = d.commandId
  caller : d'.caller = d.caller
  finished : ∀ r, d.scope = .finished r → d'.scope = .finished r
  future : ∀ v, d.command.future = some v → d'.command.future = some v

theorem Delivery.Extends.refl (d : Delivery) : d.Extends d :=
  ⟨rfl, rfl, rfl, fun _ h => h, fun _ h => h⟩

theorem Delivery.Extends.trans {d d' d'' : Delivery} (h : d.Extends d') (h' : d'.Extends d'') :
    d.Extends d'' :=
  ⟨h'.session.trans h.session, h'.commandId.trans h.commandId, h'.caller.trans h.caller,
    fun r hr => h'.finished r (h.finished r hr), fun v hv => h'.future v (h.future v hv)⟩

namespace TransportSessions

structure Grows (x x' : TransportSessions) : Prop where
  log : x.log <:+ x'.log
  delivery : ∀ {c : Nat} {d : Delivery}, x.deliveries[c]? = some d →
    ∃ d', x'.deliveries[c]? = some d' ∧ d.Extends d'

theorem Grows.refl (x : TransportSessions) : Grows x x :=
  ⟨List.suffix_refl _, fun hd => ⟨_, hd, .refl _⟩⟩

theorem Grows.trans {x y z : TransportSessions} (h : Grows x y) (h' : Grows y z) : Grows x z := by
  refine ⟨h.log.trans h'.log, ?_⟩
  intro c d hd
  obtain ⟨d', hd', he⟩ := h.delivery hd
  obtain ⟨d'', hd'', he'⟩ := h'.delivery hd'
  exact ⟨d'', hd'', he.trans he'⟩

theorem Grows.of_eq {x x' : TransportSessions} (hlog : x'.log = x.log)
    (hdeliveries : x'.deliveries = x.deliveries) : Grows x x' := by
  refine ⟨hlog ▸ List.suffix_refl _, ?_⟩
  intro c d hd
  rw [hdeliveries]
  exact ⟨d, hd, .refl _⟩

/-- What adds notes and leaves the deliveries alone. -/
theorem Grows.of_log {x x' : TransportSessions} (hlog : x.log <:+ x'.log)
    (hdeliveries : x'.deliveries = x.deliveries) : Grows x x' := by
  refine ⟨hlog, ?_⟩
  intro c d hd
  rw [hdeliveries]
  exact ⟨d, hd, .refl _⟩

theorem grows_note (x : TransportSessions) (n : Note) : Grows x (x.note n) :=
  ⟨List.suffix_cons n x.log, fun hd => ⟨_, hd, .refl _⟩⟩

theorem grows_setSession (x : TransportSessions) (k : Nat) (f : PanelSession → PanelSession) :
    Grows x (x.setSession k f) := .of_eq rfl rfl

theorem grows_setRelay (x : TransportSessions) (r : Nat) (relay : Relay) :
    Grows x (x.setRelay r relay) := .of_eq rfl rfl

theorem grows_setDelivery {x : TransportSessions} {c : Nat} {f : Delivery → Delivery}
    (hf : ∀ d, x.deliveries[c]? = some d → d.Extends (f d)) : Grows x (x.setDelivery c f) := by
  refine ⟨List.suffix_refl _, ?_⟩
  intro c' d hd
  rw [deliveries_setDelivery]
  by_cases hc : c' = c
  · subst hc
    rw [if_pos rfl, hd]
    exact ⟨f d, rfl, hf d hd⟩
  · rw [if_neg hc]
    exact ⟨d, hd, .refl _⟩

theorem grows_foldl {α : Type} {f : TransportSessions → α → TransportSessions}
    (h : ∀ x a, Grows x (f x a)) (l : List α) (x : TransportSessions) : Grows x (l.foldl f x) := by
  induction l generalizing x with
  | nil => exact .refl x
  | cons a rest ih => exact (h x a).trans (ih (f x a))

/-! ## Sessions that end -/

theorem grows_resolve (x : TransportSessions) (c : Nat) (result : Option CommandOutcome) :
    Grows x (x.resolve c result) := by
  unfold resolve
  split
  · exact .refl x
  · rename_i d hd
    split
    · exact .refl x
    · rename_i hnone
      refine (grows_setDelivery ?_).trans (grows_note _ _)
      intro d' hd'
      rw [hd, Option.some.injEq] at hd'
      subst hd'
      refine ⟨rfl, rfl, rfl, fun _ h => h, ?_⟩
      intro v hv
      rw [hv] at hnone
      exact absurd rfl hnone

theorem grows_settle (x : TransportSessions) (c : Nat) : Grows x (x.settle c) := by
  unfold settle
  split
  · exact .refl x
  · split
    · exact .refl x
    · refine (grows_setDelivery ?_).trans (grows_note _ _)
      exact fun d _ => ⟨rfl, rfl, rfl, fun _ h => h, fun _ h => h⟩

theorem grows_sessionEnded (x : TransportSessions) (r : Nat) : Grows x (x.sessionEnded r) := by
  unfold sessionEnded
  split
  · exact .refl x
  · split
    · exact .refl x
    · rename_i b _ _
      refine Grows.trans ?_ (grows_note _ _)
      exact .of_eq rfl rfl
  · split
    · exact .refl x
    · exact grows_setRelay x r _

theorem grows_letGo (x : TransportSessions) (s : PanelSession) : Grows x (x.letGo s) := by
  unfold letGo
  exact ((grows_foldl (fun x c => grows_resolve x c none) _ x).trans
    (grows_foldl grows_settle _ _)).trans (grows_foldl grows_sessionEnded _ _)

theorem grows_forget (x : TransportSessions) (k : Nat) : Grows x (x.forget k).1 := by
  unfold forget
  split
  · exact .refl x
  · rename_i s _
    split
    · exact .refl x
    · dsimp only
      have hunlist : Grows x (x.unlist k s) := .of_eq rfl rfl
      have hgo := hunlist.trans (grows_letGo (x.unlist k s) s)
      split
      · exact hgo.trans (grows_note _ _)
      · exact hgo

theorem grows_changed (x : TransportSessions) (entryId : String) : Grows x (x.changed entryId) :=
  grows_note x _

theorem grows_sayClosed (x : TransportSessions) (k : Nat) (s : PanelSession) (reason : String)
    (announce : Bool) : Grows x (x.sayClosed k s reason announce) := by
  unfold sayClosed
  dsimp only
  split
  · exact .of_log ((List.suffix_cons _ _).trans (List.suffix_cons _ _)) rfl
  · exact .of_log (List.suffix_cons _ _) rfl

theorem grows_close (x : TransportSessions) (k : Nat) (reason : String) (announce : Bool) :
    Grows x (x.close k reason announce) := by
  rcases close_eq x k reason announce with ⟨s, -, -, heq⟩ | ⟨-, heq⟩
  · rw [heq]
    exact (grows_forget x k).trans (grows_sayClosed _ _ _ _ _)
  · rw [heq]
    exact .refl x

theorem grows_teardown (x : TransportSessions) (k : Nat) : Grows x (x.teardown k) := by
  rcases teardown_eq x k with ⟨s, -, -, heq⟩ | ⟨-, heq⟩
  · rw [heq]
    exact (grows_forget x k).trans (grows_changed _ _)
  · rw [heq]
    exact .refl x

theorem grows_clearRestartNotice (x : TransportSessions) (entryId : String) :
    Grows x (x.clearRestartNotice entryId) := by
  unfold clearRestartNotice
  split
  · exact .refl x
  · exact .of_log (List.suffix_cons _ _) rfl

theorem grows_setRestartNotice (x : TransportSessions) (entryId scope reason : String)
    (ms : Nat) : Grows x (x.setRestartNotice entryId scope reason ms) :=
  .of_log (List.suffix_cons _ _) rfl

theorem grows_supersede (x : TransportSessions) (entryId : String) :
    Grows x (x.supersede entryId) := by
  unfold supersede
  split
  · exact grows_clearRestartNotice x entryId
  · exact (grows_close x _ _ _).trans (grows_clearRestartNotice _ _)

theorem grows_openSession (x : TransportSessions) (s : PanelSession) :
    Grows x (x.openSession s) := by
  rw [openSession_eq]
  refine (grows_supersede x s.entryId).trans (Grows.trans ?_ (grows_changed _ _))
  exact .of_eq rfl rfl

theorem grows_markChanged (x : TransportSessions) (k : Nat) : Grows x (x.markChanged k) := by
  unfold markChanged
  split
  · exact .refl x
  · split
    · exact grows_changed x _
    · exact .refl x

/-! ## Commands -/

theorem grows_deliver (x : TransportSessions) (k : Nat) (commandId : String) (request : Request)
    (deadlineMs : Int) (onInterim : Option Interim) (onSettled : Option (List String))
    (caller : Caller) :
    Grows x (x.deliver k commandId request deadlineMs onInterim onSettled caller) := by
  refine ⟨List.suffix_cons _ x.log, ?_⟩
  intro c d hd
  refine ⟨d, ?_, .refl d⟩
  show (x.deliveries ++ [_])[c]? = some d
  rw [List.getElem?_append_left (List.getElem?_eq_some_iff.mp hd).1]
  exact hd

theorem grows_evictLate (k n : Nat) (x : TransportSessions) : Grows x (evictLate k n x) := by
  induction n generalizing x with
  | zero => exact .refl x
  | succ n ih =>
    unfold evictLate
    split
    · exact .refl x
    · split
      · exact .refl x
      · split
        · exact .refl x
        · exact ((grows_setSession x k _).trans (grows_settle _ _)).trans (ih _)

theorem grows_stopWaiting (x : TransportSessions) (k : Nat) (commandId : String) :
    Grows x (x.stopWaiting k commandId) := by
  unfold stopWaiting
  split
  · exact .refl x
  · dsimp only
    split
    · exact grows_setSession x k _
    · split
      · exact grows_setSession x k _
      · exact ((grows_setSession x k _).trans (grows_setSession _ k _)).trans
          (grows_evictLate _ _ _)

theorem grows_fireTimer (x : TransportSessions) (c : Nat) : Grows x (x.fireTimer c) := by
  refine grows_setDelivery ?_
  intro d _
  cases hs : d.scope with
  | waiting =>
    refine ⟨rfl, rfl, rfl, ?_, fun _ h => h⟩
    intro r hr
    rw [hs] at hr
    cases hr
  | expiring => exact .refl d
  | finished r => exact .refl d

theorem grows_interimAnswer (x : TransportSessions) (c : Nat) (d : Delivery) :
    Grows x (x.interimAnswer c d).1 := by
  have hset : Grows x (x.setDelivery c fun d =>
      { d with command := { d.command with approvalPending := true } }) :=
    grows_setDelivery fun d _ => ⟨rfl, rfl, rfl, fun _ h => h, fun _ h => h⟩
  unfold interimAnswer
  dsimp only
  split <;> exact hset

theorem grows_commandResult (x : TransportSessions) (k : Nat) (s : PanelSession)
    (msg : ResultReport) : Grows x (x.commandResult k s msg).1 := by
  unfold commandResult
  split
  · exact grows_setSession x k _
  · split
    · exact .refl x
    · split
      · exact grows_setSession x k _
      · rename_i c late _ _ d _ _
        have hnoted : Grows x ((x.setSession k (·.record d.command.channel msg.outcome late
            x.now)).note (.recorded c msg.outcome.outcome late)) :=
          (grows_setSession x k _).trans (grows_note _ _)
        dsimp only
        split
        · exact hnoted.trans (grows_interimAnswer _ _ _)
        · split
          · exact hnoted.trans ((grows_setSession _ k _).trans (grows_settle _ _))
          · exact hnoted.trans ((grows_setSession _ k _).trans (grows_resolve _ _ _))

theorem grows_endDelivery {x : TransportSessions} {c : Nat} {d : Delivery}
    (hd : x.deliveries[c]? = some d) {a : Awaited}
    {r : Except DeliveryError (Option CommandOutcome)} (hr : awaitFuture d a = some r) :
    Grows x (x.endDelivery c d r) := by
  have hstart : ∀ b : Bool, Grows x
      (((if b then x.setSession d.session (·.count "timed_out") else x).setDelivery c
        (waited r)).note (.waitEnded c)) := by
    intro b
    have hwaited : ∀ y : TransportSessions, y.deliveries = x.deliveries →
        Grows y ((y.setDelivery c (waited r)).note (.waitEnded c)) := by
      intro y hy
      refine (grows_setDelivery ?_).trans (grows_note _ _)
      intro d' hd'
      rw [hy, hd, Option.some.injEq] at hd'
      subst hd'
      refine ⟨rfl, rfl, rfl, ?_, fun _ h => h⟩
      intro r' hr'
      have hnot := (awaitFuture_eq_some hr).1
      rw [hr'] at hnot
      cases hnot
    cases b
    · exact hwaited x rfl
    · exact (grows_setSession x d.session _).trans (hwaited _ rfl)
  have hstop : ∀ {y : TransportSessions} (b : Bool), Grows x y →
      Grows x (if b then y.stopWaiting d.session d.commandId else y) := by
    intro y b hy
    cases b
    · exact hy
    · exact hy.trans (grows_stopWaiting _ _ _)
  unfold endDelivery
  dsimp only
  split
  · exact (hstop _ (hstart _)).trans (grows_setSession _ _ _)
  · exact hstop _ (hstart _)

theorem grows_releaseCall (x : TransportSessions) (c : Nat) (d : Delivery) :
    Grows x (x.releaseCall c d) := by
  unfold releaseCall
  split
  · unfold releaseUnlessLate
    split
    · exact .refl x
    · split
      · exact .refl x
      · exact grows_note x _
  · exact .refl x

/-! ## Relays -/

theorem grows_uiManage (x : TransportSessions) (k : Nat) (op : String)
    (args : List (String × Wire)) (origin : Option Origin) (deadlineMs : Int) (draws : Draws)
    (lent : List String) (purpose : Purpose) :
    Grows x (x.uiManage k op args origin deadlineMs draws lent purpose) := by
  unfold uiManage
  split
  · exact grows_deliver _ _ _ _ _ _ _ _
  · exact .refl x

theorem grows_leave (x : TransportSessions) (r : Nat) (b : Subscription) :
    Grows x (x.leave r b).1 := by
  rw [leave_eq]
  exact grows_setSession x _ _

theorem grows_follow (x : TransportSessions) (r : Nat) (b : Subscription)
    (outcome : CommandOutcome) : Grows x (x.follow r b outcome).1 := by
  unfold follow
  dsimp only
  split
  · split
    · exact grows_setRelay x r _
    · exact ((grows_leave x r _).trans (grows_setRelay _ r _)).trans (grows_setSession _ _ _)
  · exact grows_setRelay x r _

theorem grows_unsubscribe (x : TransportSessions) (r : Nat) (b : Subscription) (pending : Bool)
    (draws : Draws) : Grows x (x.unsubscribe r b pending draws) := by
  have hleave := grows_leave x r b
  unfold unsubscribe
  generalize x.leave r b = p at hleave
  obtain ⟨y, empty⟩ := p
  dsimp only at hleave ⊢
  split
  · exact hleave
  · exact hleave.trans (grows_uiManage _ _ _ _ _ _ _ _ _)

theorem grows_answered (x : TransportSessions) (r : Nat) (b : Subscription)
    (outcome : CommandOutcome) (draws : Draws) : Grows x (x.answered r b outcome draws) := by
  have hfollow := grows_follow x r b outcome
  unfold answered
  generalize x.follow r b outcome = p at hfollow
  obtain ⟨y, b'⟩ := p
  dsimp only at hfollow ⊢
  split
  · exact hfollow.trans (grows_unsubscribe _ _ _ _ _)
  · have hsaid :=
      hfollow.trans ((grows_note y (.toBrowser r (.answer (browserAnswer b' outcome)))).trans
      (grows_foldl (fun z update => grows_note z (.toBrowser r (.update update)))
        (b'.held.getD []) _))
    split
    · exact hsaid.trans (grows_setRelay _ _ _)
    · have hleft := hsaid.trans ((grows_setRelay _ r (.browser { b' with
        ended := true, held := none })).trans (grows_leave _ r { b' with
          ended := true, held := none }))
      exact ⟨hleft.log, hleft.delivery⟩

theorem grows_browserEnded (x : TransportSessions) (r : Nat) (draws : Draws) :
    Grows x (x.browserEnded r draws) := by
  unfold browserEnded
  split
  · split
    · exact .refl x
    · dsimp only
      split
      · exact (grows_setRelay x r _).trans (grows_unsubscribe _ _ _ _ _)
      · exact grows_setRelay x r _
  · exact .refl x

theorem grows_endSubscribe (x : TransportSessions) (r : Nat)
    (result : Except DeliveryError CommandOutcome) (draws : Draws) :
    Grows x (x.endSubscribe r result draws) := by
  unfold endSubscribe
  split
  · cases result with
    | ok outcome => exact grows_answered _ _ _ _ _
    | error e =>
      dsimp only
      split
      · exact (grows_unsubscribe _ _ _ _ _).trans (grows_browserEnded _ _ _)
      · exact (grows_unsubscribe _ _ _ _ _).trans (grows_answered _ _ _ _ _)
  · exact .refl x

theorem grows_updateRelay (x : TransportSessions) (r : Nat) (observations : List UiObservation) :
    Grows x (x.updateRelay r observations) := by
  unfold updateRelay
  split
  · exact .refl x
  · split
    · exact .refl x
    · split
      · exact grows_setRelay x r _
      · exact grows_note x _
  · split
    · exact .refl x
    · split
      · exact .refl x
      · exact grows_setRelay x r _

/-! ## Steps and runs -/

theorem grows_report (F : WireFormats) (x : TransportSessions) (k : Nat) (s : PanelSession)
    (msg : Report) : Grows x (x.report F k s msg) := by
  obtain ⟨l, -, -, heq⟩ := report_eq F x k s msg
  rw [heq]
  exact .of_log (List.suffix_append l x.log) rfl

theorem grows_onSession {x : TransportSessions} (token : String) (connection : Nat)
    {handler : Nat → PanelSession → TransportSessions} (h : ∀ k s, Grows x (handler k s)) :
    Grows x (x.onSession token connection handler) := by
  unfold onSession
  split
  · exact .refl x
  · split
    · exact .refl x
    · exact h _ _

theorem grows_wake (x : TransportSessions) (c : Nat) (awaited : Awaited) (arrived : Bool)
    (draws : Draws) : Grows x (x.wake c awaited arrived draws) := by
  unfold wake
  split
  · exact .refl x
  · rename_i d hd
    split
    · exact .refl x
    · rename_i r hr
      have hended := (grows_endDelivery hd hr).trans (grows_releaseCall _ c d)
      rcases continueCall_eq (x.endDelivery c d r) c d (deliveryResult r) arrived draws with
        heq | ⟨held, relay, result, -, heq⟩
      · rw [heq]
        exact hended
      · rw [heq]
        exact hended.trans (grows_endSubscribe _ _ _ _)

theorem grows_step (F : WireFormats) (x : TransportSessions) (m : TransportMove) :
    Grows x (step F x m) := by
  cases m with
  | hello h => exact grows_openSession x _
  | close k reason => exact grows_close x k reason true
  | closeEntry entryId reason =>
    show Grows x (x.closeEntry entryId reason)
    unfold closeEntry
    split
    · exact .refl x
    · exact grows_close _ _ _ _
  | closeUser userId reason => exact grows_foldl (fun x k => grows_close x k reason true) _ x
  | teardown k => exact grows_teardown x k
  | forgetEntry entryId =>
    show Grows x ({ x with lastByEntry := x.lastByEntry.pop entryId }.clearRestartNotice entryId)
    refine Grows.trans ?_ (grows_clearRestartNotice _ _)
    exact .of_eq rfl rfl
  | markChanged k => exact grows_markChanged x k
  | setRestartNotice entryId scope reason ms => exact grows_setRestartNotice x _ _ _ _
  | clearRestartNotice entryId => exact grows_clearRestartNotice x entryId
  | restartNotice token connection scope reason ms =>
    exact grows_onSession token connection fun _ _ => grows_setRestartNotice x _ _ _ _
  | report token connection msg =>
    exact grows_onSession token connection fun k s => grows_report F x k s msg
  | commandResult token connection msg =>
    exact grows_onSession token connection fun k s =>
      (grows_note x _).trans (grows_commandResult _ k s msg)
  | uiUpdate token connection msg =>
    refine grows_onSession token connection ?_
    intro k s
    split
    · exact (grows_note x _).trans (grows_foldl (fun x r => grows_updateRelay x r _) _ _)
    · exact .refl x
  | sendCommand k channel value draws =>
    show Grows x (if x.commandable k then _ else x)
    split
    · exact grows_deliver _ _ _ _ _ _ _ _
    · exact .refl x
  | manage k op args wait draws =>
    show Grows x (if x.grants k capabilityManagement then _ else x)
    split
    · exact grows_deliver _ _ _ _ _ _ _ _
    · exact .refl x
  | relayCommand k channel value origin deadlineMs draws =>
    show Grows x (if x.grants k capabilityUiBundle then _ else x)
    split
    · exact grows_deliver _ _ _ _ _ _ _ _
    · exact .refl x
  | relayManage k op args origin deadlineMs lent draws => exact grows_uiManage _ _ _ _ _ _ _ _ _
  | subscribe k connection msgId browserId args origin deadlineMs draws =>
    show Grows x (if x.grants k capabilityUiBundle && x.grants k capabilityUiSubscribe then _
      else x)
    split
    · unfold subscribe
      dsimp only
      refine Grows.trans ?_ (grows_uiManage _ _ _ _ _ _ _ _ _)
      exact .of_eq rfl rfl
    · exact .refl x
  | panelLogs k draws =>
    show Grows x (if x.grants k capabilityManagement && x.grants k capabilityUiSubscribe then _
      else x)
    split
    · split
      · exact .refl x
      · unfold panelLogs
        dsimp only
        refine Grows.trans ?_ (grows_uiManage _ _ _ _ _ _ _ _ _)
        exact .of_eq rfl rfl
    · exact .refl x
  | endPanelLogs r draws =>
    show Grows x (x.endPanelLogs r draws)
    unfold endPanelLogs
    split
    · split
      · exact .refl x
      · dsimp only
        refine Grows.trans ?_ (grows_uiManage _ _ _ _ _ _ _ _ _)
        exact .of_eq rfl rfl
    · exact .refl x
  | browserEnded r draws => exact grows_browserEnded x r draws
  | fireTimer c => exact grows_fireTimer x c
  | wake c awaited arrived draws => exact grows_wake x c awaited arrived draws
  | tick n => exact .of_eq rfl rfl

/-- What happened in a run stays in every run that goes on from it. -/
theorem grows_run (F : WireFormats) (moves more : List TransportMove) :
    Grows (run F moves) (run F (moves ++ more)) := by
  rw [run, run, Runs.run_append]
  exact Runs.run_inv (Grows (Runs.run (step F) initial moves))
    (fun x m h => h.trans (grows_step F x m)) (.refl _) more

end TransportSessions

end PanelAssistant
