import DocTree.Proofs.Json.Members

/-!
# What is accepted is whole

A reader that reads straight from the text comes to every part of a value before it accepts
the value, and refuses what is broken there. So whatever such a reader accepts may also be
passed over.
-/
namespace DocTree.Json

variable {α β : Type}

def Whole (read : Json → Except Fault α) : Prop := ∀ j a, read j = .ok a → j.skip = .ok ()

theorem whole_mismatch (expected : String) :
    Whole (mismatch expected : Json → Except Fault α) :=
  fun j a h => absurd h (mismatch_ne_ok expected j a)

theorem whole_text : Whole readText := by
  intro j s h
  cases j with
  | text t => exact t.skip_of_read h
  | _ => exact whole_mismatch "a string" _ s h

theorem whole_bool : Whole readBool := by
  intro j b h
  cases j with
  | boolean => rfl
  | _ => exact whole_mismatch "a boolean" _ b h

theorem whole_word : Whole readWord := by
  intro j w h
  cases j with
  | number => rfl
  | _ => exact whole_mismatch "u32" _ w h

section Readers

variable {read : Json → Except Fault α}

theorem Whole.map (h : Whole read) (f : α → β) : Whole fun j => (read j).map f := by
  intro j b hb
  obtain ⟨a, ha, -⟩ := map_eq_ok.1 hb
  exact h j a ha

theorem Whole.option (h : Whole read) : Whole (readOption read) := by
  intro j o ho
  cases j with
  | null => rfl
  | _ =>
    obtain ⟨a, ha, -⟩ := map_eq_ok.1 ho
    exact h _ a ha

theorem mem_of_mapM_eq_ok {js : List Json} {as : List α} (h : js.mapM read = .ok as) :
    ∀ j ∈ js, ∃ a, read j = .ok a := by
  induction js generalizing as with
  | nil => exact fun j hj => absurd hj List.not_mem_nil
  | cons j js ih =>
    rw [List.mapM_cons, bind_eq_ok] at h
    obtain ⟨a, ha, h⟩ := h
    obtain ⟨as, has, -⟩ := bind_eq_ok.1 h
    exact List.forall_mem_cons.2 ⟨⟨a, ha⟩, ih has⟩

theorem Whole.list {o : Option (Json → Except Fault α)} (h : ∀ read ∈ o, Whole read) :
    Whole (readList o) := by
  intro j as has
  cases j with
  | list js e =>
    cases o with
    | none => exact nomatch has
    | some read =>
      obtain ⟨as, items, has⟩ := bind_eq_ok.1 has
      obtain ⟨u, ending, -⟩ := bind_eq_ok.1 has
      refine skip_list_eq_ok.2 ⟨fun j hj => ?_, Ending.check_any ending⟩
      obtain ⟨a, ha⟩ := mem_of_mapM_eq_ok items j hj
      exact h read rfl j a ha
  | _ => exact whole_mismatch "a sequence" _ as has

end Readers

section Record

variable {κ : Type} [DecidableEq κ] {τ : κ → Type} {s : Shape κ}
  {read : (k : κ) → Json → Except Fault (τ k)} {e : Ending}

theorem Adds.whole (h : ∀ k, Whole (read k)) {f f' : Fields τ} {m : Member}
    (hm : Adds s read f m f') : m.1.skip = .ok () ∧ m.2.skip = .ok () := by
  cases hm with
  | ignored hname _ hskip => exact ⟨Literal.skip_of_read hname, hskip⟩
  | field hname _ _ hv => exact ⟨Literal.skip_of_read hname, h _ _ _ hv⟩

theorem whole_of_readMembers (h : ∀ k, Whole (read k)) {ms : List Member} {f f' : Fields τ}
    (hms : readMembers s read f ms = .ok f') : ∀ m ∈ ms, m.1.skip = .ok () ∧ m.2.skip = .ok () := by
  rw [readMembers_eq_foldlM] at hms
  induction ms generalizing f with
  | nil => exact fun m hm => absurd hm List.not_mem_nil
  | cons m ms ih =>
    rw [List.foldlM_cons, bind_eq_ok] at hms
    obtain ⟨f₁, hm, hms⟩ := hms
    exact List.forall_mem_cons.2 ⟨(readMember_eq_ok.1 hm).whole h, ih hms⟩

theorem whole_of_readItems (h : ∀ k, Whole (read k)) {ks : List κ} {i : Nat} {f f' : Fields τ}
    {items : List Json} (hitems : readItems s read e ks i f items = .ok (f', [])) :
    ∀ j ∈ items, j.skip = .ok () := by
  induction ks generalizing items i f with
  | nil =>
    obtain ⟨-, rfl⟩ := Prod.mk.inj (Except.ok.inj hitems)
    exact fun j hj => absurd hj List.not_mem_nil
  | cons k ks ih =>
    cases items with
    | nil => exact fun j hj => absurd hj List.not_mem_nil
    | cons j js =>
      rw [readItems, bind_eq_ok] at hitems
      obtain ⟨v, hv, hitems⟩ := hitems
      exact List.forall_mem_cons.2 ⟨h k j v hv, ih hitems⟩

theorem finish_direct_eq_ok {wanted total : Nat} {surplus : List Json}
    (h : Regime.finish wanted total surplus e .direct = .ok ()) :
    surplus = [] ∧ e.check .closing = .ok () := by
  cases surplus with
  | nil => exact ⟨rfl, h⟩
  | cons => exact nomatch h

theorem whole_record {o : Option ((k : κ) → Json → Except Fault (τ k))}
    (h : ∀ read ∈ o, ∀ k, Whole (read k)) (build : Fields τ → Except Fault α) :
    Whole (readRecord .direct s o build) := by
  intro j a ha
  cases j with
  | list items e =>
    cases o with
    | none => exact nomatch ha
    | some read =>
      obtain ⟨f, hf, -⟩ := bind_eq_ok.1 ha
      obtain ⟨⟨f', surplus⟩, hitems, hf⟩ := bind_eq_ok.1 hf
      obtain ⟨u, hfinish, -⟩ := bind_eq_ok.1 hf
      obtain ⟨rfl, ending⟩ := finish_direct_eq_ok hfinish
      exact skip_list_eq_ok.2 ⟨whole_of_readItems (h read rfl) hitems, Ending.check_any ending⟩
  | object members e =>
    cases o with
    | none => exact nomatch ha
    | some read =>
      obtain ⟨f, hf, -⟩ := bind_eq_ok.1 ha
      obtain ⟨f', hmembers, hf⟩ := bind_eq_ok.1 hf
      obtain ⟨u, ending, -⟩ := bind_eq_ok.1 hf
      exact skip_object_eq_ok.2
        ⟨whole_of_readMembers (h read rfl) hmembers, Ending.check_any ending⟩
  | _ => exact whole_mismatch s.title _ a ha

end Record

end DocTree.Json
