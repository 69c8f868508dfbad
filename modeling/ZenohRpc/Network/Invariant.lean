import ZenohRpc.Deployment.Selection
import ZenohRpc.Network.System

/-!
# The invariant of the network

What holds of the servers and of the client methods in every state of a network, whatever comes and
goes.  The tokens that are declared are those of registered services.  What a client method has been
listed are keys of tokens that servers declared, the samples among its answers are the metadata of
servers, its metadata queries arrived where it has a handle, and a call that it made is for the
server it has found.
-/

namespace ZenohRpc

open Json KeyExpr

variable {ZenohId World : Type}

section

variable [Runtime] [Zenoh ZenohId]

/-- What holds of the setup of a call of `serve`: the names left and the tokens declared are those
of its server's services, and each service's token is declared unless its name is left, or the loop
is gone, or the tokens are being dropped. -/
structure Setup.Inv (n : Node ZenohId World) (st : Setup) : Prop where
  names : ∀ ks, st.phase = .declaring ks → ∀ k ∈ ks, k ∈ n.server.services
  tokens : ∀ ke ∈ st.tokens, ∃ k ∈ n.server.services, ke = n.server.tokenKe k
  declared : ∀ ks, st.phase = .declaring ks → ∀ k ∈ n.server.services,
    k ∈ ks ∨ n.server.tokenKe k ∈ st.tokens
  serving : st.phase = .serving → n.loop.status = .receiving → ∀ k ∈ n.server.services,
    n.server.tokenKe k ∈ st.tokens

/-- What holds of a client method. -/
structure MethodRun.Inv [DecidableEq ZenohId] (s : DeployState ZenohId World) (run : MethodRun) :
    Prop where
  listed : ∀ kes ke, run.listed = some (.ok kes) → .ok ke ∈ kes →
    Intersects run.client.rpcKe ke ∧
      ∃ a ∈ s.nodes, ∃ k ∈ a.server.services, ke = a.server.tokenKe k
  answers : ∀ data rawData, .ok data ∈ run.answers → .ok rawData ∈ data →
    ∃ b ∈ s.nodes, rawData = sample (serverMetadata b.server.labels b.server.instanceUuid)
  asking : ∀ handles, run.asking = some handles →
    handles ⊆ run.asked ∧ ∃ id, run.next ZenohId = .ask id
  asked : ∀ p ∈ run.asked, ∃ (id : ZenohId) (tout : ℕ) (n : Node ZenohId World),
    s.nodes[p.1]? = some n ∧ n.loop.arrived[p.2]? = some ((metadataRequest id tout).query p.2)
  called : ∀ c, run.call = some (.sent c) → ∃ id req call, run.next ZenohId = .call id ∧
    run.request = .ok req ∧ s.calls[c]? = some call ∧
    call.request =
      run.client.channel.getRequest id req run.method.toString run.client.tout
  uncalled : ∀ e, run.call = some (.unsent e) → ∃ id, run.next ZenohId = .call id ∧
    (run.request = .error e ∨ ∃ req e', run.request = .ok req ∧ e = .zenohError e')

/-- What holds of a network. -/
structure NetState.Inv [DecidableEq ZenohId] (s : NetState ZenohId World) : Prop where
  length : s.setups.length = s.deploy.nodes.length
  setups : ∀ (i : ℕ) (st : Setup), s.setups[i]? = some st →
    ∃ n, s.deploy.nodes[i]? = some n ∧ Setup.Inv n st
  runs : ∀ run ∈ s.runs, run.Inv s.deploy

/-! ## Steps of the deployment keep it -/

omit [Runtime] in
/-- The server of a node stays. -/
lemma Setup.Inv.extend {n n' : Node ZenohId World} {st : Setup} (h : Setup.Inv n st)
    (hext : n.Extends n') : Setup.Inv n' st := by
  refine ⟨?_, ?_, ?_, fun hphase hstatus => ?_⟩
  · rw [hext.server]
    exact h.names
  · rw [hext.server]
    exact h.tokens
  · rw [hext.server]
    exact h.declared
  · rw [hext.server]
    exact h.serving hphase (hext.receiving hstatus)

omit [Runtime] [Zenoh ZenohId] in
/-- A server of an earlier state is still there. -/
lemma DeployState.Extends.exists_node {s s' : DeployState ZenohId World} (h : s.Extends s')
    {P : Server ZenohId World → Prop} (hs : ∃ n ∈ s.nodes, P n.server) :
    ∃ n ∈ s'.nodes, P n.server := by
  obtain ⟨n, hn, hP⟩ := hs
  obtain ⟨i, hi⟩ := List.mem_iff_getElem?.mp hn
  obtain ⟨n', hn', hext⟩ := h.nodes i n hi
  exact ⟨n', List.mem_of_getElem? hn', hext.server ▸ hP⟩

variable [DecidableEq ZenohId]

/-- What holds of a client method keeps holding. -/
lemma MethodRun.Inv.extend {s s' : DeployState ZenohId World} {run : MethodRun}
    (h : run.Inv s) (hext : s.Extends s') : run.Inv s' := by
  refine ⟨fun kes ke hlisted hke => ?_, fun data rawData hdata hraw => ?_, h.asking,
    fun p hp => ?_, fun c hc => ?_, h.uncalled⟩
  · obtain ⟨hintersects, ha⟩ := h.listed kes ke hlisted hke
    exact ⟨hintersects, hext.exists_node (P := fun a => ∃ k ∈ a.services, ke = a.tokenKe k) ha⟩
  · exact hext.exists_node (P := fun b => rawData = sample (serverMetadata b.labels b.instanceUuid))
      (h.answers data rawData hdata hraw)
  · obtain ⟨id, tout, n, hn, harrived⟩ := h.asked p hp
    obtain ⟨n', hn', hnode⟩ := hext.nodes _ n hn
    exact ⟨id, tout, n', hn', hnode.getElem?_arrived harrived⟩
  · obtain ⟨id, req, call, hnext, hreq, hcall, hrequest⟩ := h.called c hc
    obtain ⟨call', hcall', hrequest', _⟩ := hext.calls c call hcall
    exact ⟨id, req, call', hnext, hreq, hcall', hrequest'.trans hrequest⟩

namespace NetState.Inv

variable {s : NetState ZenohId World}

/-- Steps of the deployment that start no node keep the invariant. -/
lemma extend (h : s.Inv) {d : DeployState ZenohId World} (hext : s.deploy.Extends d)
    (hlength : d.nodes.length = s.deploy.nodes.length) :
    NetState.Inv { s with deploy := d } := by
  refine ⟨h.length.trans hlength.symm, fun i st hst => ?_, fun run hrun =>
    (h.runs run hrun).extend hext⟩
  obtain ⟨n, hn, hinv⟩ := h.setups i st hst
  obtain ⟨n', hn', hnode⟩ := hext.nodes i n hn
  exact ⟨n', hn', hinv.extend hnode⟩

/-- The setup of a node may change to one that fits the node. -/
lemma setSetup (h : s.Inv) {i : ℕ} {st : Setup}
    (hst : ∀ n, s.deploy.nodes[i]? = some n → Setup.Inv n st) :
    NetState.Inv { s with setups := s.setups.set i st } := by
  refine ⟨by rw [List.length_set, h.length], fun j st' hj => ?_, h.runs⟩
  rw [List.getElem?_set] at hj
  split at hj
  · rename_i hij
    subst hij
    split at hj
    · rename_i hlt
      rw [h.length] at hlt
      obtain rfl := Option.some.inj hj
      exact ⟨_, List.getElem?_eq_getElem hlt, hst _ (List.getElem?_eq_getElem hlt)⟩
    · cases hj
  · exact h.setups j st' hj

/-- A client method may go on to a state that the invariant holds of. -/
lemma setRun (h : s.Inv) {k : ℕ} {run : MethodRun} (hrun : run.Inv s.deploy) :
    NetState.Inv { s with runs := s.runs.set k run } := by
  refine ⟨h.length, h.setups, fun run' hrun' => ?_⟩
  rcases List.mem_or_eq_of_mem_set hrun' with hold | rfl
  · exact h.runs run' hold
  · exact hrun

end NetState.Inv

/-! ## Every step keeps it -/

omit [DecidableEq ZenohId] in
/-- What a server sends in reply to a metadata query is its metadata. -/
lemma DeployState.Traced.metadata_eq {s : DeployState ZenohId World} (h : s.Traced) {p : ℕ × ℕ}
    {n : Node ZenohId World} (hn : s.nodes[p.1]? = some n) {id : ZenohId} {tout : ℕ}
    (harrived : n.loop.arrived[p.2]? = some ((metadataRequest id tout).query p.2)) {r : QueryReply}
    (hr : r ∈ n.loop.replies) (hhandle : r.handle = p.2) :
    r.sample = sample (serverMetadata n.server.labels n.server.instanceUuid) := by
  obtain ⟨_, _, _, _, _, hraw⟩ := h.exists_completion hn harrived hr hhandle
  rw [replyTo_metadataRequest, Option.some.injEq] at hraw
  exact hraw.symm

/-- A client method that starts knows nothing yet. -/
lemma MethodRun.Inv.start (s : DeployState ZenohId World) (client : ServiceClient)
    (method : Ident) (request : ZRPCResult Bytes) (debugRequest : String) :
    (MethodRun.start client method request debugRequest).Inv s := by
  constructor <;> simp [MethodRun.start]

/-- A client method that goes on asking has made no call. -/
lemma MethodRun.Inv.call_eq_none {s : DeployState ZenohId World} {run : MethodRun}
    (h : run.Inv s) (hnext : ∀ id, run.next ZenohId ≠ .call id) : run.call = none := by
  cases hcall : run.call with
  | none => rfl
  | some call =>
    cases call with
    | sent c =>
      obtain ⟨id, _, _, hnext', _⟩ := h.called c hcall
      exact absurd hnext' (hnext id)
    | unsent e =>
      obtain ⟨id, hnext', _⟩ := h.uncalled e hcall
      exact absurd hnext' (hnext id)

/-- Every step of a network keeps the invariant. -/
lemma NetState.Inv.step {s s' : NetState ZenohId World} {e : NetEvent ZenohId World}
    (h : s.Inv) (htraced : s.deploy.Traced) (hs : NetStep s e s') : s'.Inv := by
  have hmoves : s.deploy.Extends s'.deploy := DeployState.extends_of_moves hs.moves_deploy
  have hlength : (∀ srv ks, e ≠ .serve srv ks) →
      s'.deploy.nodes.length = s.deploy.nodes.length := hs.length_eq
  have hrun : ∀ {k : ℕ} {run : MethodRun}, s.runs[k]? = some run → run.Inv s.deploy :=
    fun hk => h.runs _ (List.mem_of_getElem? hk)
  cases hs with
  | @serve srv ks hperm =>
    refine ⟨by simp [h.length], fun i st hst => ?_, fun run hrun =>
      (h.runs run hrun).extend hmoves⟩
    rw [List.getElem?_append] at hst
    split at hst
    · obtain ⟨n, hn, hinv⟩ := h.setups i st hst
      obtain ⟨n', hn', hnode⟩ := hmoves.nodes i n hn
      exact ⟨n', hn', hinv.extend hnode⟩
    · rename_i hlt
      obtain ⟨hi, rfl⟩ := List.getElem?_eq_some_iff.mp hst
      have hlast : i = s.deploy.nodes.length := by
        rw [h.length] at hi hlt
        simp only [List.length_singleton] at hi
        omega
      refine ⟨⟨srv, .start⟩, by rw [hlast, List.getElem?_concat_length], ?_⟩
      rw [List.getElem_singleton]
      refine ⟨fun ks' hks k hk => ?_, by simp, fun ks' hks k hk => ?_, by simp⟩
      · obtain rfl := SetupPhase.declaring.inj hks
        exact hperm.subset hk
      · obtain rfl := SetupPhase.declaring.inj hks
        exact Or.inl (hperm.mem_iff.mpr (AList.mem_keys.mp hk))
  | @declareToken i n k ks ts hn hst =>
    refine h.setSetup fun n' hn' => ?_
    obtain ⟨n'', hn'', hinv⟩ := h.setups i _ hst
    rw [hn, Option.some.injEq] at hn' hn''
    subst hn' hn''
    refine ⟨fun ks' hks k' hk' => ?_, fun ke hke => ?_, fun ks' hks k' hk' => ?_, by simp⟩
    · obtain rfl := SetupPhase.declaring.inj hks
      exact hinv.names _ rfl k' (List.mem_cons_of_mem _ hk')
    · rcases List.mem_append.mp hke with hold | hnew
      · exact hinv.tokens ke hold
      · exact ⟨k, hinv.names _ rfl k List.mem_cons_self, List.mem_singleton.mp hnew⟩
    · obtain rfl := SetupPhase.declaring.inj hks
      rcases hinv.declared _ rfl k' hk' with hleft | hdeclared
      · rcases List.mem_cons.mp hleft with rfl | hrest
        · exact Or.inr (by simp)
        · exact Or.inl hrest
      · exact Or.inr (List.mem_append_left _ hdeclared)
  | @abandon i ks ts d hst hs =>
    have hinv' := h.extend hmoves (hlength (by simp))
    refine hinv'.setSetup fun n hn => ⟨by simp, ?_, by simp, by simp⟩
    obtain ⟨n', hn', hinv⟩ := hinv'.setups i _ hst
    rw [hn, Option.some.injEq] at hn'
    subst hn'
    exact hinv.tokens
  | @moveTokens i ts hst =>
    refine h.setSetup fun n hn => ?_
    obtain ⟨n', hn', hinv⟩ := h.setups i _ hst
    rw [hn, Option.some.injEq] at hn'
    subst hn'
    refine ⟨by simp, hinv.tokens, by simp, fun _ _ k hk => ?_⟩
    exact (hinv.declared [] rfl k hk).resolve_left (List.not_mem_nil)
  | loop => exact h.extend hmoves (hlength (by simp))
  | foreign => exact h.extend hmoves (hlength (by simp))
  | @dropServer i n ts hst hn =>
    refine h.setSetup fun n' hn' => ⟨by simp, ?_, by simp, by simp⟩
    obtain ⟨n'', hn'', hinv⟩ := h.setups i _ hst
    rw [hn', Option.some.injEq] at hn''
    subst hn''
    exact hinv.tokens
  | @dropToken i t ts hst =>
    refine h.setSetup fun n hn => ⟨by simp, fun ke hke => ?_, by simp, by simp⟩
    obtain ⟨n', hn', hinv⟩ := h.setups i _ hst
    rw [hn, Option.some.injEq] at hn'
    subst hn'
    exact hinv.tokens ke (List.mem_cons_of_mem _ hke)
  | start =>
    refine ⟨h.length, h.setups, fun run hrun => ?_⟩
    rcases List.mem_append.mp hrun with hold | hnew
    · exact h.runs run hold
    · rw [List.mem_singleton.mp hnew]
      exact .start _ _ _ _ _
  | @list k run res hk hnext hres =>
    have hinv := hrun hk
    have hcall := hinv.call_eq_none (by simp [hnext])
    refine h.setRun ⟨fun kes ke hlisted hke => ?_, hinv.answers, fun handles hasking => ?_,
      hinv.asked, by simp [hcall], by simp [hcall]⟩
    · obtain ⟨hintersects, st, hst, hmem⟩ := hres kes (Option.some.inj hlisted) ke hke
      obtain ⟨i, hi⟩ := List.mem_iff_getElem?.mp hst
      obtain ⟨n, hn, hsetup⟩ := h.setups i st hi
      exact ⟨hintersects, n, List.mem_of_getElem? hn, hsetup.tokens ke hmem⟩
    · obtain ⟨_, id, hask⟩ := hinv.asking handles hasking
      rw [hnext] at hask
      cases hask
  | @ask k run id targets hk hnext hasking hreaches =>
    have hinv := (hrun hk).extend hmoves
    have hcall := hinv.call_eq_none (by simp [hnext])
    refine (h.extend hmoves (hlength (by simp))).setRun ⟨hinv.listed, hinv.answers,
      fun handles hhandles => ?_, fun p hp => ?_, by simp [hcall], by simp [hcall]⟩
    · obtain rfl := Option.some.inj hhandles
      exact ⟨List.subset_append_right _ _, id, hnext⟩
    · rcases List.mem_append.mp hp with hold | hnew
      · exact hinv.asked p hold
      · exact ⟨id, run.client.tout, DeployState.arrived_deliver hnew⟩
  | @refuseAsk k run id e hk hnext hasking =>
    have hinv := hrun hk
    have hcall := hinv.call_eq_none (by simp [hnext])
    refine h.setRun ⟨hinv.listed, fun data rawData hdata hraw => ?_, by simp [hasking],
      hinv.asked, by simp [hcall], by simp [hcall]⟩
    rcases List.mem_append.mp hdata with hold | hnew
    · exact hinv.answers data rawData hold hraw
    · simp at hnew
  | @answered k run handles data hk hasking hdata =>
    have hinv := hrun hk
    obtain ⟨hsub, id, hnext⟩ := hinv.asking handles hasking
    have hcall := hinv.call_eq_none (by simp [hnext])
    refine h.setRun ⟨hinv.listed, fun data' rawData hmem hraw => ?_, by simp,
      hinv.asked, by simp [hcall], by simp [hcall]⟩
    rcases List.mem_append.mp hmem with hold | hnew
    · exact hinv.answers data' rawData hold hraw
    · obtain rfl := Except.ok.inj (List.mem_singleton.mp hnew)
      obtain ⟨target, htarget, n, hn, r, hr, hhandle, rfl⟩ := hdata rawData hraw
      obtain ⟨id', tout, n', hn', harrived⟩ := hinv.asked target (hsub htarget)
      rw [hn, Option.some.injEq] at hn'
      subst hn'
      exact ⟨n, List.mem_of_getElem? hn, htraced.metadata_eq hn harrived hr hhandle⟩
  | @call k run id req targets d hk hnext hcall hreq hd =>
    have hinv := (hrun hk).extend hmoves
    refine (h.extend hmoves (hlength (by simp))).setRun ⟨hinv.listed, hinv.answers, hinv.asking,
      hinv.asked, fun c hc => ?_, by simp⟩
    obtain rfl : s.deploy.calls.length = c := by simpa using hc
    cases hd
    exact ⟨id, req, _, hnext, hreq, List.getElem?_concat_length, rfl⟩
  | @notWritten k run id e hk hnext hcall hreq =>
    have hinv := hrun hk
    refine h.setRun ⟨hinv.listed, hinv.answers, hinv.asking, hinv.asked, by simp,
      fun e' he' => ?_⟩
    obtain rfl : e = e' := by simpa using he'
    exact ⟨id, hnext, Or.inl hreq⟩
  | @refuseCall k run id req e hk hnext hcall hreq =>
    have hinv := hrun hk
    refine h.setRun ⟨hinv.listed, hinv.answers, hinv.asking, hinv.asked, by simp,
      fun e' he' => ?_⟩
    obtain rfl : ZRPCError.zenohError e = e' := by simpa using he'
    exact ⟨id, hnext, Or.inr ⟨req, e, hreq, rfl⟩⟩
  | reply => exact h.extend hmoves (hlength (by simp))

/-- The invariant holds in every state that a network reaches. -/
lemma NetState.inv_of_reachable {s : NetState ZenohId World}
    (h : (network ZenohId World).Reachable s) : s.Inv := by
  refine h.invariant ?_ ?_
  · rintro s rfl
    exact ⟨rfl, by simp, by simp⟩
  · intro s e s' hreach hinv hs
    exact hinv.step (DeployState.traced_of_reachable (network_refines.reachable hreach)) hs

end

end ZenohRpc
