import Mathlib.Data.List.Basic

/-! Chains of rules for packets. The first rule that matches a packet and does more than to log it decides. -/

namespace PacketFilter

variable {π : Type}

inductive Verdict where
  | accept
  | reject
deriving DecidableEq

inductive Target where
  | accept
  | reject
  | log
deriving DecidableEq

structure Rule (π : Type) where
  holds : π → Bool
  target : Target

/-- The verdict of a chain, whose policy is for the packets that no rule decides on. -/
def verdict (policy : Verdict) (packet : π) : List (Rule π) → Verdict
  | [] => policy
  | rule :: rules =>
    match rule.holds packet, rule.target with
    | true, .accept => .accept
    | true, .reject => .reject
    | true, .log => verdict policy packet rules
    | false, _ => verdict policy packet rules

variable {policy : Verdict} {packet : π} {front back rules : List (Rule π)}

theorem verdict_append : verdict policy packet (front ++ back) = verdict (verdict policy packet back) packet front := by
  induction front with
  | nil => rfl
  | cons rule rest ih =>
    simp only [List.cons_append, verdict]
    split
    · rfl
    · rfl
    · exact ih
    · exact ih

/-- Rules that never reject accept the packets that one of them matches. -/
theorem verdict_of_accepts (accepts : ∀ rule ∈ rules, rule.target = .accept) : verdict policy packet rules =
    if ∃ rule ∈ rules, rule.holds packet = true then .accept else policy := by
  induction rules with
  | nil => simp [verdict]
  | cons rule rest ih =>
    have here : rule.target = .accept := accepts rule List.mem_cons_self
    unfold verdict
    rw [here]
    cases held : rule.holds packet with
    | true => simp [held]
    | false => simp [held, ih fun later member => accepts later (List.mem_cons_of_mem _ member)]

/-- Rules that never accept reject the packets that a rule other than a logging one matches. -/
theorem verdict_of_no_accept (rejects : ∀ rule ∈ rules, rule.target ≠ .accept) :
    verdict .accept packet rules = .reject ↔ ∃ rule ∈ rules, rule.target = .reject ∧ rule.holds packet = true := by
  induction rules with
  | nil => simp [verdict]
  | cons rule rest ih =>
    have here : rule.target ≠ .accept := rejects rule List.mem_cons_self
    have later := ih fun other member => rejects other (List.mem_cons_of_mem _ member)
    unfold verdict
    cases held : rule.holds packet <;> cases target : rule.target <;> simp_all

end PacketFilter
