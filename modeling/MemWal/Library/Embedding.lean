import MemWal.Library.Requests

namespace MemWal.Library
variable {Op : Type} {Answer : Op → Type} {Op' : Type} {Answer' : Op' → Type} {σ σ' χ χ' ε α : Type}

-- A program of one service as a part of the programs of a larger one.
def Program.embed (embedding : Op → Op') (back : ∀ op, Answer' (embedding op) → Answer op) :
    Program Op Answer ε α → Program Op' Answer' ε α
  | .done value => .done value
  | .fail error => .fail error
  | .call op resume => .call (embedding op) (fun answer => (resume (back op answer)).embed embedding back)

section Embedded
variable {embedding : Op → Op'} {back : ∀ op, Answer' (embedding op) → Answer op} {p : Program Op Answer ε α}

theorem Program.embed_only (p : Program Op Answer ε α) : (p.embed embedding back).Only (fun op => ∃ inner, op = embedding inner) := by
  induction p with
  | done value => trivial
  | fail error => trivial
  | call op resume ih => exact ⟨⟨op,rfl⟩,fun answer => ih _⟩

-- Where the larger service answers as the smaller one does on its part of the
-- state, the calls are those of the program there.
theorem Completes.embed {serve : σ → (op : Op) → χ → σ × Answer op} {serve' : σ' → (op : Op') → χ' → σ' × Answer' op}
    {part : σ' → σ} {choice : χ' → χ}
    (agrees : ∀ s op c, back op (serve' s (embedding op) c).2 = (serve (part s) op (choice c)).2)
    {calls : List (Made σ' Op' χ')} {result : Except ε α}
    (completes : Completes serve' (p.embed embedding back) calls result) :
    ∃ inner, Completes serve p inner result ∧ ∀ made ∈ inner, ∃ outer ∈ calls, outer.op = embedding made.op ∧
      made.choice = choice outer.choice := by
  induction p generalizing calls with
  | done value =>
    cases calls with
    | nil => exact ⟨[],completes,fun _ none_ => absurd none_ List.not_mem_nil⟩
    | cons made rest => cases completes
  | fail error =>
    cases calls with
    | nil => exact ⟨[],completes,fun _ none_ => absurd none_ List.not_mem_nil⟩
    | cons made rest => cases completes
  | call op resume ih =>
    cases calls with
    | nil => cases completes
    | cons made rest =>
      obtain ⟨state,op',c⟩ := made
      obtain ⟨rfl,tail⟩ := completes
      simp only [agrees] at tail
      obtain ⟨inner,done,from_⟩ := ih _ tail
      refine ⟨⟨part state,op,choice c⟩ :: inner,⟨rfl,done⟩,?_⟩
      intro made member
      rcases List.mem_cons.mp member with rfl | later
      · exact ⟨_,List.mem_cons_self,rfl,rfl⟩
      · obtain ⟨outer,there,same⟩ := from_ made later
        exact ⟨outer,List.mem_cons_of_mem _ there,same⟩

end Embedded
end MemWal.Library
