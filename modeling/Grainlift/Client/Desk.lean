/-
  Grainlift.Client.Desk — a session in a concurrent run, as its client's calls find it.

  A call that comes to the session starts a handler there, whose number is the call's
  ticket; its answer is what the wire makes of the handler's result. Which calls can be
  lost, and what the client is given of them, differs from client to client.

  Proved: what became of one call (`served`). It never came to the session; or a handler
  serves it from then on, and the client has that handler's result or gave up on it.
-/

import Grainlift.Lib.Caller
import Grainlift.Server.Trails

namespace Grainlift.Client

open Grainlift.Lib Grainlift.Protocol Grainlift.Server Concurrent

variable {Op : Type} {A : Op → Type}

/-- The calls of a client with these contexts. -/
def sessionDesk (srv : Service) (v : SessionView) (caller : CallContext → Prop) (invocation : Op → Invocation)
    (received : (op : Op) → Except RpcError Reply → A op) (lost : (op : Op) → A op → Prop) : Desk St Ev Nat A where
  begins s op e h := ∃ ctx p, caller ctx ∧ e = .start ctx (invocation op) ∧ programOn srv v ctx (invocation op) = some p ∧
    h = s.handlers.length
  answers s h op a := ∃ hd r, s.handlers[h]? = some hd ∧ hd.prog = .done r ∧ a = received op r
  lost := lost

section

variable {host : Host} {srv : Service} {v : SessionView} {caller : CallContext → Prop} {invocation : Op → Invocation}
  {received : (op : Op) → Except RpcError Reply → A op} {lost : (op : Op) → A op → Prop} {s u w : St} {op : Op}
  {ks : List (Option Nat)}

/-! ## One call -/

/-- A program of the session is that of its route. -/
theorem routed {ctx : CallContext} {i : Invocation} {p : Do RpcError Reply} (h : programOn srv v ctx i = some p) :
    ∃ principal sessionId body, route srv ctx i = .onSession principal sessionId body ∧ p = body v := by
  unfold programOn at h
  split at h
  case h_2 => cases h
  case h_1 principal sessionId body hroute =>
  split at h
  case isFalse => cases h
  exact ⟨principal, sessionId, body, hroute, (Option.some.inj h).symm⟩

variable (host srv v caller invocation received lost) in
/-- What became of one call. -/
inductive Served (u w : St) (op : Op) : List (Option Nat) → A op → Prop
  | lost {a : A op} : (machine host srv v).Path (fun _ _ => True) u w → lost op a → Served u w op [none] a
  | handled {t t' : St} (ctx : CallContext) {p : Do RpcError Reply} {h : Nat} {a : A op} :
      caller ctx → programOn srv v ctx (invocation op) = some p →
      (machine host srv v).Path (fun _ _ => True) u t → h = t.handlers.length → t'.log = t.log →
      t'.started[h]? = some (ctx, invocation op) → (∃ hd, t'.handlers[h]? = some hd ∧ hd.trail = []) →
      (machine host srv v).Path (fun _ _ => True) t t' → (machine host srv v).Path (fun _ _ => True) t' w →
      (∃ hd r, w.handlers[h]? = some hd ∧ hd.prog = .done r ∧ a = received op r) ∨ lost op a →
      Served u w op [some h] a

theorem served (hr : (machine host srv v).Reach u) {a : A op}
    (h : Calls (machine host srv v) (sessionDesk srv v caller invocation received lost) u (.call op .done) ks a w) :
    Served host srv v caller invocation received lost u w op ks a := by
  cases h with
  | lost hp hl hc =>
    cases hc with
    | done hq => exact .lost (hp.trans hq) hl
  | @call _ t x _ _ _ e k _ _ _ hp hb hq ha hc =>
    obtain ⟨ctx, p, hcaller, rfl, hprog, rfl⟩ := hb
    cases hc with
    | done hw =>
      have hlen := (reach_serves (hr.extend hp)).1
      have hstep : (machine host srv v).step t (.start ctx (invocation op)) =
          { t with handlers := t.handlers ++ [⟨[], p, none⟩], started := t.started ++ [(ctx, invocation op)] } := by
        show step host srv v t _ = _
        simp only [step, next, hprog]
        rfl
      refine .handled ctx hcaller hprog hp rfl ?_ ?_ ?_ (.step _ (.refl t) trivial) (hq.trans hw) ?_
      · rw [hstep]
      · rw [hstep]
        simp [← hlen]
      · rw [hstep]
        exact ⟨⟨[], p, none⟩, by simp, rfl⟩
      · rcases ha with ⟨hd, r, hh, hpr, rfl⟩ | hl
        · have hx := hr.extend ((hp.step _ trivial).trans hq)
          exact .inl ⟨hd, r, returned_path hx hw hh hpr, hpr, rfl⟩
        · exact .inr hl

end

end Grainlift.Client
