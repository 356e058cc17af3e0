import Ontograph.Json.Reader
import Ontograph.Proofs.Json.Scanning

/-!
# Compact texts are read back

The tokens of a value take the machine from the place where a value may begin to the place where the
value has been delivered, whatever containers are around it (`Machine.Parsed`).  So a compact text is
read as the value that was written.

Main statement: `parse?_compact`.
-/

namespace Ontograph.Json

namespace Machine

variable {stack : List Frame} {rest : List Token}

/-- A member of an object as the machine keeps it. -/
def keyed (member : String × Json) : Option String × Json :=
  (some member.1, member.2)

theorem ofMembers_keyed (members : List (String × Json)) :
    ofMembers (members.map keyed) = object members := by
  rw [ofMembers, mapM_map_eq_some]
  exact fun _ _ => rfl

/-- The tokens of the value deliver it to the container around it. -/
def Parsed (v : Json) : Prop :=
  ∀ stack rest, run (v.tokens ++ rest) ⟨stack, .value⟩ = run rest (deliver v stack)

/-- No value begins with the end of an array. -/
theorem exists_tokens (v : Json) : ∃ token rest, v.tokens = token :: rest ∧ token ≠ .closeBracket := by
  cases v with
  | array items => cases items <;> exact ⟨_, _, rfl, nofun⟩
  | object members => rcases members with _ | ⟨⟨key, v⟩, members⟩ <;> exact ⟨_, _, rfl, nofun⟩
  | _ => exact ⟨_, _, rfl, nofun⟩

/-- Where an array may end a value may begin as well. -/
theorem Parsed.firstItem {v : Json} (parsed : Parsed v) :
    run (v.tokens ++ rest) ⟨stack, .firstItem⟩ = run rest ⟨stack, .afterItem [v]⟩ := by
  obtain ⟨token, others, tokens, notEnd⟩ := exists_tokens v
  have same : step token ⟨stack, .firstItem⟩ = step token ⟨.items [] :: stack, .value⟩ := by
    cases token <;> first | rfl | exact absurd rfl notEnd
  have begun := parsed (.items [] :: stack) rest
  rw [tokens, List.cons_append, run] at begun ⊢
  rw [same]
  exact begun

theorem run_itemTokens {items : List Json} (each : ∀ v ∈ items, Parsed v) (done : List Json) :
    run (itemTokens items ++ rest) ⟨stack, .afterItem done⟩ =
      run rest (deliver (array (done.reverse ++ items)) stack) := by
  induction items generalizing done with
  | nil =>
      rw [List.append_nil]
      rfl
  | cons v items ih =>
      obtain ⟨first, others⟩ := List.forall_mem_cons.1 each
      rw [itemTokens, List.cons_append, List.append_assoc, run]
      show run (v.tokens ++ _) ⟨.items done :: stack, .value⟩ = _
      rw [first, deliver, ih others, List.reverse_cons, List.append_assoc]
      rfl

theorem run_memberTokens {members : List (String × Json)}
    (each : ∀ member ∈ members, Parsed member.2) (done : List (Option String × Json)) :
    run (memberTokens members ++ rest) ⟨stack, .afterMember done⟩ =
      run rest (deliver (ofMembers (done.reverse ++ members.map keyed)) stack) := by
  induction members generalizing done with
  | nil =>
      rw [List.map_nil, List.append_nil]
      rfl
  | cons member members ih =>
      obtain ⟨key, v⟩ := member
      obtain ⟨first, others⟩ := List.forall_mem_cons.1 each
      rw [memberTokens]
      show run (v.tokens ++ memberTokens members ++ rest)
        ⟨.members done (some key) :: stack, .value⟩ = _
      rw [List.append_assoc, first, deliver, ih others, List.reverse_cons, List.append_assoc]
      rfl

theorem parsed_of_writable {v : Json} (writable : v.Writable) : Parsed v := by
  induction writable with
  | null | bool | number | string => exact fun _ _ => rfl
  | @array items each ih =>
      intro stack rest
      cases items with
      | nil => rfl
      | cons v items =>
          obtain ⟨first, others⟩ := List.forall_mem_cons.1 ih
          rw [tokens]
          show run (v.tokens ++ itemTokens items ++ rest) ⟨stack, .firstItem⟩ = _
          rw [List.append_assoc, first.firstItem, run_itemTokens others]
          rfl
  | @object members each ih =>
      intro stack rest
      cases members with
      | nil => rfl
      | cons member members =>
          obtain ⟨key, v⟩ := member
          obtain ⟨first, others⟩ := List.forall_mem_cons.1 ih
          rw [tokens]
          show run (v.tokens ++ memberTokens members ++ rest)
            ⟨.members [] (some key) :: stack, .value⟩ = _
          rw [List.append_assoc, first, deliver, run_memberTokens others]
          exact congrArg (fun v => run rest (deliver v stack)) (ofMembers_keyed ((key, v) :: members))

end Machine

/-- A text with the tokens of a value is read as that value. -/
theorem parse?_of_tokens {v : Json} {text : String} (writable : v.Writable)
    (tokens : Token.ofText? text = some v.tokens) : parse? text = some v := by
  have delivered := Machine.parsed_of_writable writable [] []
  rw [List.append_nil] at delivered
  rw [parse?, tokens]
  show ofTokens? v.tokens = some v
  rw [ofTokens?, Machine.start, delivered]
  rfl

/-- The compact text of a value is read as that value. -/
theorem parse?_compact {v : Json} (writable : v.Writable) : parse? (compact v) = some v :=
  parse?_of_tokens writable (ofText?_compact writable)

end Ontograph.Json
