/-
**One iOS device on an account.**

As long as a single device uses an account, its view of the record is never changed by anybody else:
a landing only brings the record on the server nearer to what the device sees already.  A run of the
device is then a run of its screen, event by event, over its own view.

Main definitions:

* `StudyHours.OnDevice` — an action of the device or a landing;
* `StudyHours.SoleDevice` — only the device has writes in flight;
* `StudyHours.AtEvent` — a condition on the events of the device.

Main results:

* `StudyHours.SoleDevice.cases` — **a landing changes nothing for the device, an event changes its
  view by the writes it issues**.
-/

import Mathlib
import StudyHours.Submissions

set_option relaxedAutoImplicit false
set_option autoImplicit false

namespace StudyHours

open Account
open RecordViewController (Event Transition)

/-- The action is an event of device `d` or a landing. -/
def OnDevice (d : ℕ) : Action → Prop
  | .ios d' _ => d' = d
  | .land _ => True
  | _ => False

instance (d : ℕ) (a : Action) : Decidable (OnDevice d a) := by
  induction a using Action.casesOn <;> dsimp only [OnDevice] <;> infer_instance

/-- The writes in flight are writes of device `d`. -/
def SoleDevice (d : ℕ) (s : Account) : Prop := ∀ e ∈ s.outbox, e.sender = .ios d

/-- The action satisfies `P` if it is an event of device `d`. -/
def AtEvent (P : Hours → RecordViewController → Event → Prop) (d : ℕ) (s : Account) : Action → Prop
  | .ios d' e => d' = d → P (s.view d) (s.device d) e
  | _ => True

instance (P : Hours → RecordViewController → Event → Prop) [∀ h vc e, Decidable (P h vc e)] (d : ℕ)
    (s : Account) (a : Action) : Decidable (AtEvent P d s a) := by
  induction a using Action.casesOn <;> dsimp only [AtEvent] <;> infer_instance

/-- What an action does where device `d` is alone. -/
inductive SoleStep (d : ℕ) (s t : Account) : Action → Prop
  | land {w : Write} (hout : s.outbox = ⟨.ios d, w⟩ :: t.outbox) (hdb : t.db = s.db.apply w)
      (hview : t.view d = s.view d) (hdevice : t.device d = s.device d) : SoleStep d s t (.land 0)
  | event {e : Event} {vc : RecordViewController} {ws : List Write}
      (htr : Transition (s.view d) (s.device d) e vc ws) (hdb : t.db = s.db)
      (hout : t.outbox = s.outbox ++ sendAll (.ios d) ws)
      (hview : t.view d = (s.view d).applyAll ws)
      (hdevice : t.device d = vc.notify (snapshots (s.view d) ws)) : SoleStep d s t (.ios d e)

namespace SoleDevice

variable {d : ℕ} {s t : Account} {a : Action}

/-- **A landing changes nothing for the device, an event changes its view by the writes it
issues.** -/
theorem cases (h : SoleDevice d s) (ha : OnDevice d a) (hst : Trans s a t) :
    SoleDevice d t ∧ SoleStep d s t a := by
  cases hst with
  | @ios d' e vc ws htr =>
      obtain rfl : d' = d := ha
      refine ⟨fun f hf => ?_, .event htr rfl rfl (view_issue_self s _ vc ws) (device_issue_self ..)⟩
      rcases List.mem_append.1 hf with hf | hf
      · exact h f hf
      · obtain ⟨w, -, rfl⟩ := List.mem_map.1 hf
        rfl
  | @land j l₁ l₂ e hout hj hfirst =>
      have he : e.sender = .ios d := h e (by simp [hout])
      -- the oldest write is the next one of the device to land
      have hl₁ : l₁ = [] := by
        refine List.eq_nil_iff_forall_not_mem.2 fun e' he' => ?_
        have hother := hfirst e' he'
        rw [h e' (by simp [hout, he']), he] at hother
        simp [Sender.sameClient] at hother
      subst hl₁ hj
      have hdevice : (s.landed [] e l₂).device d = s.device d := device_landed_self he
      obtain ⟨x, w⟩ := e
      obtain rfl : x = .ios d := he
      exact ⟨fun f hf => h f (by rw [hout]; exact List.mem_cons_of_mem _ hf),
        .land hout rfl (view_land_self hout rfl hfirst) hdevice⟩
  | _ => exact absurd ha id

/-- A device that is alone stays alone. -/
theorem trans (h : SoleDevice d s) (ha : OnDevice d a) (hst : Trans s a t) : SoleDevice d t :=
  (h.cases ha hst).1

end SoleDevice

end StudyHours
