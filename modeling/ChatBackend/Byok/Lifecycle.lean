import ChatBackend.Byok.Script
import ChatBackend.Foundations.Guarantee

/-!
# The life of a key

Calls of the service that are executed one after another. `Effect` says what a call does with the
row of its user, and `byok_lifecycle` what holds of the rows after any sequence of calls.
-/

namespace ChatBackend.Byok

open Prog Store
open Chat (Provider)
open Policy (SubscriptionStatus)

/-- A call of the service. -/
inductive ByokCall : Type
  | setKey (userId : ℕ) (apiKey : String)
  | toggle (userId : ℕ) (enabled : Bool)
  | deleteKey (userId : ℕ)
  | markInvalid (userId : ℕ)
  | markExpired (userId : ℕ)

namespace ByokCall

def userId : ByokCall → ℕ
  | setKey u _ | toggle u _ | deleteKey u | markInvalid u | markExpired u => u

/-- The method of a call. -/
def method (crypto : Crypto) (settings : ByokSettings) : ByokCall → ByokProg Unit
  | setKey u apiKey => do
    let _ ← Byok.setKey crypto settings u apiKey
    pure ()
  | toggle u enabled => do
    let _ ← Byok.toggle settings u enabled
    pure ()
  | deleteKey u => do
    let _ ← Byok.deleteKey u
    pure ()
  | markInvalid u => Byok.markInvalid u
  | markExpired u => Byok.markExpired u none

/-- A call, in its session. -/
def serve (crypto : Crypto) (settings : ByokSettings) (c : ByokCall) : ByokProg Unit :=
  TxProg.sessionScope (c.method crypto settings)

end ByokCall

/-- What a call does with the row of its user. -/
def Effect (crypto : Crypto) : ByokCall → Option ByokKey → Option ByokKey → Prop
  | .setKey _ apiKey, old, new => ∃ key keyStatus, crypto.plaintext key = some apiKey ∧
    new = some (storedRow key keyStatus (detectByokProvider apiKey) old)
  | .toggle _ enabled, old, new => new = old.map fun row =>
    if enabled ∧ row.keyStatus ≠ .valid then row else { row with enabled := enabled }
  | .deleteKey _, _, new => new = none
  | .markInvalid _, old, new =>
    new = old.map fun row => { row with keyStatus := .invalid, enabled := false }
  | .markExpired _, old, new =>
    new = old.map fun row => { row with keyStatus := .expired, enabled := false }

/-! ## The methods -/

section Methods

variable {crypto : Crypto} {settings : ByokSettings} {α : Type} {u : ℕ}

abbrev ByokWorld : Type := World ByokDb Answers Unit

/-- No condition on the states in which a program acts. -/
abbrev anywhere : TxAct ByokStmt → ByokWorld → Prop := fun _ _ => True

/-- The rule for a statement. -/
theorem wp_byokStmt {Q : Except ByokError α → ByokWorld → Prop} {s : ByokStmt}
    {k : s.Resp → ByokProg α} {w : ByokWorld}
    (h : ∀ r, s.Allowed crypto w.work r → (k r).wp (byokStore crypto).step anywhere Q
      ⟨w.db, (byokStore crypto).view (s.writes w.work) w.work, s.outside w.gen r, ()⟩) :
    Prog.wp (byokStore crypto).step anywhere Q (.act (.stmt s) k) w := by
  refine (Store.wp_stmt s k w).2 ⟨trivial, ?_⟩
  rintro r _ _ ⟨⟩ ⟨hr, rfl, rfl⟩
  exact h r hr

/-- The rule for a statement that writes nothing. -/
theorem wp_read {Q : Except ByokError α → ByokWorld → Prop} {s : ByokStmt} {k : s.Resp → ByokProg α}
    {w : ByokWorld} (hs : s.writes w.work = []) (hg : ∀ r, s.outside w.gen r = w.gen)
    (h : ∀ r, s.Allowed crypto w.work r → (k r).wp (byokStore crypto).step anywhere Q w) :
    Prog.wp (byokStore crypto).step anywhere Q (.act (.stmt s) k) w := by
  refine wp_byokStmt fun r hr => ?_
  rw [hs, hg]
  exact h r hr

theorem load_wp {rejected : Option Sealed} {Q : Except ByokError α → ByokWorld → Prop}
    {k : Option ByokKey → ByokProg α} {w : ByokWorld}
    (hk : (k (w.work.keys u)).wp (byokStore crypto).step anywhere Q w) :
    Prog.wp (byokStore crypto).step anywhere Q (.act (.stmt (.load u rejected)) k) w := by
  refine wp_read rfl (fun _ => rfl) fun r (hr : r = _) => ?_
  rw [hr]
  exact hk

/-- The program ends with these rows. -/
abbrev EndsWith (keys : ℕ → Option ByokKey) (o : Except ByokError α) (w : ByokWorld) : Prop :=
  (∃ a, o = .ok a) ∧ w.work.keys = keys

variable {keys : ℕ → Option ByokKey} {w : ByokWorld}

/-- The audit that a method ends with. -/
theorem record_wp {payload : List (String × Json)} {a : α} (hw : w.work.keys = keys) :
    ((record u payload).bind fun _ => .ret a).wp (byokStore crypto).step anywhere (EndsWith keys) w :=
  wp_byokStmt fun _ _ => ⟨⟨a, rfl⟩, hw⟩

/-- The flush of a row that is there. -/
theorem flush_wp {loaded new : ByokKey} {payload : List (String × Json)} {a : α}
    (hw : w.work.keys u = some loaded) :
    ((flush u loaded new).bind fun _ => (record u payload).bind fun _ => .ret a).wp
      (byokStore crypto).step anywhere (EndsWith (Function.update w.work.keys u (some new))) w := by
  simp only [flush, TxProg.stmt, bind_eq, act_bind, ret_bind]
  refine wp_byokStmt fun r (hr : r = _) => ?_
  have hfound : r = true := by simp [hr, hw]
  rw [if_pos hfound]
  refine record_wp ?_
  by_cases hnew : new = loaded
  · simp [ByokStmt.writes, hnew, ← hw]
  · simp [ByokStmt.writes, hnew, hw, byokStore, ByokOp.apply]

/-- The insert of a row that is not there. -/
theorem insert_wp {row : ByokKey} {payload : List (String × Json)} {a : α}
    (hw : w.work.keys u = none) :
    ((insert u row).bind fun _ => (record u payload).bind fun _ => .ret a).wp
      (byokStore crypto).step anywhere (EndsWith (Function.update w.work.keys u (some row))) w := by
  simp only [insert, TxProg.stmt, bind_eq, act_bind, ret_bind]
  refine wp_byokStmt fun r (hr : r = _) => ?_
  have hnone : r = true := by simp [hr, hw]
  rw [if_pos hnone]
  refine record_wp ?_
  simp [ByokStmt.writes, hw, byokStore, ByokOp.apply]

/-! ### What the methods do -/

/-- A method that does `Effect` with the row of its user, and nothing with the other rows. -/
def Does (crypto : Crypto) (c : ByokCall) (keys : ℕ → Option ByokKey) (o : Except ByokError α)
    (w : ByokWorld) : Prop :=
  (∃ a, o = .ok a) ∧ ∃ new, Effect crypto c (keys c.userId) new ∧
    w.work.keys = Function.update keys c.userId new

theorem EndsWith.does {c : ByokCall} {new : Option ByokKey} {o : Except ByokError α}
    (h : EndsWith (Function.update keys c.userId new) o w) (he : Effect crypto c (keys c.userId) new) :
    Does crypto c keys o w := ⟨h.1, new, he, h.2⟩

theorem storeKey_wp {apiKey : String} {keyStatus : KeyStatus} :
    (storeKey crypto settings u apiKey keyStatus (detectByokProvider apiKey)).wp
      (byokStore crypto).step anywhere (Does crypto (.setKey u apiKey) w.work.keys) w := by
  simp only [storeKey, TxProg.stmt, bind_eq, act_bind, ret_bind]
  refine wp_read rfl (fun _ => rfl) fun r _ => wp_read rfl (fun _ => rfl) ?_
  rintro _ ⟨random, rfl⟩
  refine load_wp ?_
  have hplain := crypto.plaintext_encryptKey r.1 r.2 random apiKey
  have heffect : Effect crypto (.setKey u apiKey) (w.work.keys u) (some (storedRow
      (crypto.encryptKey r.1 r.2 random apiKey) keyStatus (detectByokProvider apiKey)
      (w.work.keys u))) := ⟨_, _, hplain, rfl⟩
  refine wp_mono (fun o w' h => EndsWith.does (c := .setKey u apiKey) h heffect) ?_
  cases hrow : w.work.keys u with
  | none => exact insert_wp hrow
  | some loaded => exact flush_wp hrow

theorem setKey_wp {apiKey : String} :
    (setKey crypto settings u apiKey).wp (byokStore crypto).step anywhere
      (Does crypto (.setKey u apiKey) w.work.keys) w := by
  unfold setKey
  split
  · rename_i hnone
    rw [← hnone]
    exact storeKey_wp
  · rename_i provider hsome
    simp only [TxProg.stmt, bind_eq, act_bind, ret_bind]
    refine wp_byokStmt fun validation _ => ?_
    rw [← hsome]
    exact storeKey_wp (w := ⟨_, w.work, _, ()⟩)

theorem toggle_wp {enabled : Bool} :
    (toggle settings u enabled).wp (byokStore crypto).step anywhere
      (Does crypto (.toggle u enabled) w.work.keys) w := by
  simp only [toggle, TxProg.stmt, bind_eq, act_bind, ret_bind]
  refine load_wp ?_
  cases hrow : w.work.keys u with
  | none =>
    exact ⟨⟨_, rfl⟩, none, by simp [Effect, ByokCall.userId, hrow], by simp [ByokCall.userId, ← hrow]⟩
  | some row =>
    have heffect : Effect crypto (.toggle u enabled) (w.work.keys u)
        (some (if enabled ∧ row.keyStatus ≠ .valid then row else { row with enabled := enabled })) := by
      simp [Effect, hrow]
    refine wp_mono (fun o w' h => EndsWith.does (c := .toggle u enabled) h heffect) ?_
    simp only
    split
    · refine record_wp ?_
      show w.work.keys = Function.update w.work.keys u _
      rw [← hrow, Function.update_eq_self]
    · exact flush_wp hrow

theorem deleteKey_wp : (deleteKey u).wp (byokStore crypto).step anywhere
    (Does crypto (.deleteKey u) w.work.keys) w := by
  simp only [deleteKey, TxProg.stmt, bind_eq, act_bind, ret_bind]
  refine wp_byokStmt fun _ _ => ?_
  refine wp_mono (fun o w' h => EndsWith.does (c := .deleteKey u) h rfl) (record_wp ?_)
  cases hrow : w.work.keys u with
  | none =>
    have hwrites : (ByokStmt.delete u).writes w.work = [] := by simp [ByokStmt.writes, hrow]
    show ((byokStore crypto).view _ _).keys = Function.update w.work.keys u none
    rw [hwrites, ← hrow, Function.update_eq_self]
    rfl
  | some row => simp [ByokStmt.writes, ByokCall.userId, hrow, byokStore, ByokOp.apply]

/-- The rows of a key that is marked. -/
theorem markAs_wp (keyStatus : KeyStatus) (action : String) (c : ByokCall)
    (hc : ∀ old, Effect crypto c old
      (old.map fun row => { row with keyStatus := keyStatus, enabled := false })) :
    (markAs keyStatus action c.userId none).wp (byokStore crypto).step anywhere
      (Does crypto c w.work.keys) w := by
  simp only [markAs, TxProg.stmt, bind_eq, act_bind, ret_bind]
  refine load_wp ?_
  refine wp_mono (fun o w' h => EndsWith.does h (hc _)) ?_
  cases hrow : w.work.keys c.userId with
  | none =>
    refine ⟨⟨_, rfl⟩, ?_⟩
    rw [Option.map_none, ← hrow, Function.update_eq_self]
  | some row =>
    show (Prog.bind (flush _ _ _) fun _ => Prog.bind (record _ _) fun _ => .ret ()).wp _ _ _ _
    exact flush_wp hrow

theorem Does.discard {c : ByokCall} {p : ByokProg α}
    (h : p.wp (byokStore crypto).step anywhere (Does crypto c keys) w) :
    (p.bind fun _ => .ret ()).wp (byokStore crypto).step anywhere (Does crypto c keys) w := by
  rw [wp_bind]
  refine wp_mono (fun o w' hd => ?_) h
  obtain ⟨⟨a, rfl⟩, hrow⟩ := hd
  exact ⟨⟨(), rfl⟩, hrow⟩

/-- **Every call does its effect**, and raises nothing. -/
theorem method_wp (c : ByokCall) : (c.method crypto settings).wp (byokStore crypto).step anywhere
    (Does crypto c w.work.keys) w := by
  cases c with
  | setKey u apiKey =>
    have h : (setKey crypto settings u apiKey).wp (byokStore crypto).step anywhere
      (Does crypto (.setKey u apiKey) w.work.keys) w := setKey_wp
    exact Does.discard h
  | toggle u enabled =>
    have h : (toggle settings u enabled).wp (byokStore crypto).step anywhere
      (Does crypto (.toggle u enabled) w.work.keys) w := toggle_wp
    exact Does.discard h
  | deleteKey u =>
    have h : (deleteKey u).wp (byokStore crypto).step anywhere
      (Does crypto (.deleteKey u) w.work.keys) w := deleteKey_wp
    exact Does.discard h
  | markInvalid u =>
    have heffect : ∀ old, Effect crypto (.markInvalid u) old
        (old.map fun row => { row with keyStatus := .invalid, enabled := false }) := fun _ => rfl
    simp only [ByokCall.method, markInvalid]
    exact markAs_wp .invalid _ (.markInvalid u) heffect
  | markExpired u =>
    have heffect : ∀ old, Effect crypto (.markExpired u) old
        (old.map fun row => { row with keyStatus := .expired, enabled := false }) := fun _ => rfl
    simp only [ByokCall.method, markExpired]
    exact markAs_wp .expired _ (.markExpired u) heffect

end Methods

/-! ## Sequences of calls -/

/-- The key that a user has after a call. -/
def keyAfter (u : ℕ) (key : Option String) : ByokCall → Option String
  | .setKey v apiKey => if v = u then some apiKey else key
  | .deleteKey v => if v = u then none else key
  | _ => key

/-- The last key that was set and not deleted since. -/
def lastKey (u : ℕ) (calls : List ByokCall) : Option String := calls.foldl (keyAfter u) none

/-- The row holds the key, with the provider that the key denotes, and is enabled only as valid. -/
def Represents (crypto : Crypto) : Option String → Option ByokKey → Prop
  | none, none => True
  | some apiKey, some row => crypto.plaintext row.sealed = some apiKey ∧
    row.provider = detectByokProvider apiKey ∧ (row.enabled = true → row.keyStatus = .valid)
  | _, _ => False

section Sequences

variable {crypto : Crypto} {settings : ByokSettings} {u : ℕ} {key : Option String}
  {old new : Option ByokKey} {c : ByokCall}

/-- An effect on the row is one on the key. -/
theorem Represents.effect (h : Represents crypto key old) (he : Effect crypto c old new) :
    Represents crypto (keyAfter c.userId key c) new := by
  cases c with
  | setKey v apiKey =>
    obtain ⟨sealed, keyStatus, hplain, rfl⟩ := he
    simp only [keyAfter, ByokCall.userId, if_true]
    refine ⟨hplain, rfl, fun henabled => ?_⟩
    cases old with
    | none => cases henabled
    | some row =>
      have hboth : keyStatus = .valid ∧ row.enabled = true := by simpa [storedRow] using henabled
      exact hboth.1
  | deleteKey v =>
    obtain rfl : new = none := he
    simp [keyAfter, ByokCall.userId, Represents]
  | toggle v enabled =>
    obtain rfl := he
    cases old with
    | none => exact h
    | some row =>
      cases key with
      | none => exact h.elim
      | some apiKey =>
        obtain ⟨hplain, hprovider, henabled⟩ := h
        rw [Option.map_some]
        split
        · exact ⟨hplain, hprovider, henabled⟩
        · rename_i hvalid
          refine ⟨hplain, hprovider, fun (hon : enabled = true) => ?_⟩
          by_contra hne
          exact hvalid ⟨hon, hne⟩
  | markInvalid v =>
    obtain rfl := he
    cases old with
    | none => exact h
    | some row =>
      cases key with
      | none => exact h.elim
      | some apiKey => exact ⟨h.1, h.2.1, nofun⟩
  | markExpired v =>
    obtain rfl := he
    cases old with
    | none => exact h
    | some row =>
      cases key with
      | none => exact h.elim
      | some apiKey => exact ⟨h.1, h.2.1, nofun⟩

theorem keyAfter_of_ne (h : u ≠ c.userId) : keyAfter u key c = key := by
  cases c with
  | setKey | deleteKey => exact if_neg (Ne.symm h)
  | _ => rfl

/-- A call, in its session. -/
theorem serve_wp {w : ByokWorld} : (c.serve crypto settings).wp (byokStore crypto).step anywhere
    (fun _ w' => ∃ new, Effect crypto c (w.work.keys c.userId) new ∧
      w'.db.keys = Function.update w.work.keys c.userId new) w := by
  rw [ByokCall.serve, wp_sessionScope]
  refine wp_mono (fun o w' h => ?_) (method_wp c)
  obtain ⟨⟨a, rfl⟩, hrow⟩ := h
  exact ⟨trivial, hrow⟩

variable {steps : List (ByokCall × ByokDb × ByokDb)} {g : Answers} {d : ByokDb}

/-- **The rows represent the keys** of the calls so far. -/
theorem sequence_represents (h : Sequence (byokStore crypto) (ByokCall.serve crypto settings)
    (fun _ _ _ => True) () Answers.none ByokDb.empty steps g d) (u : ℕ) :
    Represents crypto (lastKey u (steps.map Prod.fst)) (d.keys u) := by
  induction h with
  | nil => trivial
  | @snoc steps g d c o w h _ hr ih =>
    obtain ⟨new, heffect, hkeys⟩ := hr.of_wp serve_wp
    rw [lastKey, List.map_append, List.foldl_append, ← lastKey, hkeys]
    by_cases hu : u = c.userId
    · subst hu
      rw [Function.update_self]
      exact ih.effect heffect
    · rw [Function.update_of_ne hu]
      show Represents crypto (keyAfter u (lastKey u (steps.map Prod.fst)) c) (d.keys u)
      rw [keyAfter_of_ne hu]
      exact ih

/-- The key that a row represents. -/
theorem Represents.plaintext {row : Option ByokKey} (h : Represents crypto key row) :
    row.map (plaintextKeyWithProvider crypto) = key.map fun k => some (k, detectByokProvider k) := by
  cases row with
  | none =>
    cases key with
    | none => rfl
    | some apiKey => exact h.elim
  | some row =>
    cases key with
    | none => exact h.elim
    | some apiKey =>
      obtain ⟨hplain, hprovider, -⟩ := h
      simp only [Option.map_some, plaintextKeyWithProvider, hplain, hprovider]
      cases detectByokProvider apiKey <;> rfl

/-- The reader of the key. -/
theorem getPlaintextKeyWithProvider_wp {w : ByokWorld} (h : Represents crypto key (w.work.keys u)) :
    (getPlaintextKeyWithProvider crypto u).wp (byokStore crypto).step anywhere
      (fun o _ => ∃ r, o = .ok r ∧ r.map Prod.snd = key.map fun k => (k, detectByokProvider k)) w := by
  have hplain := h.plaintext
  simp only [getPlaintextKeyWithProvider, TxProg.stmt, bind_eq, act_bind, ret_bind]
  refine load_wp ?_
  cases hrow : w.work.keys u with
  | none =>
    rw [hrow] at hplain
    refine ⟨none, rfl, ?_⟩
    cases key with
    | none => rfl
    | some apiKey => cases hplain
  | some row =>
    rw [hrow] at hplain
    cases key with
    | none => cases hplain
    | some apiKey =>
      have hsome : plaintextKeyWithProvider crypto row = some (apiKey, detectByokProvider apiKey) :=
        Option.some.inj hplain
      simp only [hsome]
      exact ⟨_, rfl, rfl⟩

end Sequences

/-- **The life of a key.** After any sequence of calls a key is enabled only as valid; the key that
is read is the last one that was set and not deleted since, with the provider that it denotes; and
the policy allows a turn with it exactly to a subscriber whose key is enabled and valid, as the
client is shown. -/
theorem byok_lifecycle {crypto : Crypto} {settings : ByokSettings}
    {steps : List (ByokCall × ByokDb × ByokDb)} {g : Answers} {d : ByokDb}
    (h : Sequence (byokStore crypto) (ByokCall.serve crypto settings) (fun _ _ _ => True) () Answers.none
      ByokDb.empty steps g d) (u : ℕ) :
    (∀ row, d.keys u = some row → row.enabled = true → row.keyStatus = .valid) ∧
    (∀ o w, Runs (byokStore crypto).step (getPlaintextKeyWithProvider crypto u) ⟨d, d, g, ()⟩ o w →
      ∃ r, o = .ok r ∧ r.map Prod.snd =
        (lastKey u (steps.map Prod.fst)).map fun k => (k, detectByokProvider k)) ∧
    ∀ trialUsed subscription balance,
      let state := Policy.loadPolicyState trialUsed subscription balance (d.keys u)
      (Policy.evaluate state .byok = .allowed ↔ subscription = .active ∧
        ∃ row, d.keys u = some row ∧ row.enabled = true ∧ row.keyStatus = .valid) ∧
      (Policy.effective state).canGenerateByokMode = (Policy.evaluate state .byok).allow ∧
      ((Policy.effective state).byokEnabled = true ↔
        ∃ row, d.keys u = some row ∧ row.enabled = true ∧ row.keyStatus = .valid) := by
  have hrep := sequence_represents h u
  refine ⟨fun row hrow henabled => ?_, fun o w hr => ?_, fun trialUsed subscription balance => ?_⟩
  · rw [hrow] at hrep
    cases hkey : lastKey u (steps.map Prod.fst) with
    | none =>
      rw [hkey] at hrep
      exact hrep.elim
    | some apiKey =>
      rw [hkey] at hrep
      exact hrep.2.2 henabled
  · let w₀ : ByokWorld := ⟨d, d, g, ()⟩
    exact hr.of_wp (getPlaintextKeyWithProvider_wp (w := w₀) hrep)
  · have hbyok := Policy.loadPolicyState_byok trialUsed subscription balance (d.keys u)
    refine ⟨?_, rfl, ?_⟩
    · rw [Policy.evaluate_byok_iff, hbyok]
      rfl
    · rw [← hbyok]
      simp [Policy.effective]

/-- A key is set and enabled, and another one set in its place: it is enabled and valid, it is the
one that is read, and the policy allows a subscriber to use it. -/
theorem byok_lifecycle_run : ∃ (d : ByokDb) (g : Answers)
    (o : Except ByokError (Option (Sealed × String × Option Provider))) (w : ByokWorld),
    (∃ row, d.keys 1 = some row ∧ row.enabled = true ∧ row.keyStatus = .valid) ∧
    Runs (byokStore packing).step (getPlaintextKeyWithProvider packing 1) ⟨d, d, g, ()⟩ o w ∧
    (∃ r, o = .ok r ∧ r.map Prod.snd = some ("sk-b", some Provider.openai)) ∧
    Policy.evaluate (Policy.loadPolicyState none .active none (d.keys 1)) .byok = .allowed := by
  let ω : ByokScript := ⟨[.valid, .valid], [], 0⟩
  let calls : List ByokCall := [.setKey 1 "sk-ant-a", .toggle 1 true, .setKey 1 "sk-b"]
  have h := serveAll_sequence (byokHandler packing) ω calls
    (.nil : Sequence (byokStore packing) (ByokCall.serve packing openaiSettings) (fun _ _ _ => True)
      () Answers.none ByokDb.empty [] Answers.none ByokDb.empty)
  let run := serveAll (byokHandler packing) (ByokCall.serve packing openaiSettings) () ω calls
    Answers.none ByokDb.empty
  have hread := Store.eval_runs_step (byokHandler packing) (getPlaintextKeyWithProvider packing 1)
    (⟨run.2.2, run.2.2, run.2.1, ()⟩, ω)
  have henabled : (run.2.2.keys 1).any (fun row => row.enabled && row.keyStatus = .valid) = true := by
    decide +kernel
  obtain ⟨row, hrow, hboth⟩ := (Option.any_eq_true ..).1 henabled
  rw [Bool.and_eq_true, decide_eq_true_iff] at hboth
  obtain ⟨-, hkey, hpolicy⟩ := byok_lifecycle h 1
  have hlast : (lastKey 1 (([] ++ run.1).map Prod.fst)).map (fun k => (k, detectByokProvider k)) =
      some ("sk-b", some .openai) := by decide +kernel
  obtain ⟨r, hr, heq⟩ := hkey _ _ hread
  refine ⟨_, _, _, _, ⟨row, hrow, hboth⟩, hread, ⟨r, hr, heq.trans hlast⟩, ?_⟩
  exact (hpolicy none .active none).1.2 ⟨rfl, row, hrow, hboth⟩

end ChatBackend.Byok
