import MemWal.Library.Programs

namespace MemWal.Library
variable {Op : Type} {Answer : Op → Type} {σ χ ε δ α β γ : Type}

-- What a program on its own comes to, however its calls are decided within `Usual`.
def Alone (serve : σ → (op : Op) → χ → σ × Answer op) (Usual : χ → Prop) (post : Except ε α → σ → Prop) :
    Program Op Answer ε α → σ → Prop
  | .done value,s => post (.ok value) s
  | .fail error,s => post (.error error) s
  | .call op resume,s => ∀ c, Usual c → Alone serve Usual post (resume (serve s op c).2) (serve s op c).1

-- What is left to be done once a first part has ended.
def Afterwards (serve : σ → (op : Op) → χ → σ × Answer op) (Usual : χ → Prop) (post : Except ε β → σ → Prop)
    (next : α → Program Op Answer ε β) : Except ε α → σ → Prop
  | .ok value,s => Alone serve Usual post (next value) s
  | .error error,s => post (.error error) s

-- What a program on its own may come to.
def Ends (serve : σ → (op : Op) → χ → σ × Answer op) (Usual : χ → Prop) :
    Program Op Answer ε α → σ → Except ε α → σ → Prop
  | .done value,s,result,now => result = .ok value ∧ now = s
  | .fail error,s,result,now => result = .error error ∧ now = s
  | .call op resume,s,result,now => ∃ c, Usual c ∧ Ends serve Usual (resume (serve s op c).2) (serve s op c).1 result now

-- A program on its own gets to a call of that kind, however its calls before are decided.
def Reaches (serve : σ → (op : Op) → χ → σ × Answer op) (Usual : χ → Prop) (goal : Op → Prop) :
    Program Op Answer ε α → σ → Prop
  | .call op resume,s => goal op ∨ ∀ c, Usual c → Reaches serve Usual goal (resume (serve s op c).2) (serve s op c).1
  | _,_ => False

variable {serve : σ → (op : Op) → χ → σ × Answer op} {Usual : χ → Prop} {s : σ}

section Reaching
variable {goal : Op → Prop} {p : Program Op Answer ε α}

theorem Reaches.bind {next : α → Program Op Answer ε β} (reaches : Reaches serve Usual goal p s) :
    Reaches serve Usual goal (p >>= next) s := by
  induction p generalizing s with
  | done value => exact reaches.elim
  | fail error => exact reaches.elim
  | call op resume ih => exact reaches.imp id (fun later c usual => ih _ (later c usual))

theorem Reaches.attempt (reaches : Reaches serve Usual goal p s) :
    Reaches serve Usual goal (p.attempt : Program Op Answer δ (Except ε α)) s := by
  induction p generalizing s with
  | done value => exact reaches.elim
  | fail error => exact reaches.elim
  | call op resume ih => exact reaches.imp id (fun later c usual => ih _ (later c usual))

end Reaching

theorem Ends.exists (possible : ∃ c, Usual c) (p : Program Op Answer ε α) (s : σ) :
    ∃ result now, Ends serve Usual p s result now := by
  induction p generalizing s with
  | done value => exact ⟨_,_,rfl,rfl⟩
  | fail error => exact ⟨_,_,rfl,rfl⟩
  | call op resume ih =>
    obtain ⟨c,usual⟩ := possible
    obtain ⟨result,now,ends⟩ := ih (serve s op c).2 (serve s op c).1
    exact ⟨result,now,c,usual,ends⟩

namespace Alone

theorem of_ends {post : Except ε α → σ → Prop} {p : Program Op Answer ε α} {result : Except ε α} {now : σ}
    (alone : Alone serve Usual post p s) (ends : Ends serve Usual p s result now) : post result now := by
  induction p generalizing s with
  | done value =>
    obtain ⟨rfl,rfl⟩ := ends
    exact alone
  | fail error =>
    obtain ⟨rfl,rfl⟩ := ends
    exact alone
  | call op resume ih =>
    obtain ⟨c,usual,tail⟩ := ends
    exact ih _ (alone c usual) tail

theorem bind_iff {post : Except ε β → σ → Prop} {p : Program Op Answer ε α} {next : α → Program Op Answer ε β} :
    Alone serve Usual post (p >>= next) s ↔ Alone serve Usual (Afterwards serve Usual post next) p s := by
  induction p generalizing s with
  | done value => exact Iff.rfl
  | fail error => exact Iff.rfl
  | call op resume ih => exact forall_congr' (fun c => imp_congr_right (fun _ => ih _))

theorem perform_bind {post : Except ε β → σ → Prop} {op : Op} {next : Answer op → Program Op Answer ε β} :
    Alone serve Usual post (Program.perform op >>= next) s ↔
      ∀ c, Usual c → Alone serve Usual post (next (serve s op c).2) (serve s op c).1 := Iff.rfl

theorem ite {post : Except ε α → σ → Prop} {condition : Prop} [Decidable condition] {p q : Program Op Answer ε α}
    (yes : condition → Alone serve Usual post p s) (no : ¬ condition → Alone serve Usual post q s) :
    Alone serve Usual post (if condition then p else q) s := by
  split
  · rename_i holds
    exact yes holds
  · rename_i fails
    exact no fails

theorem weaken {post weaker : Except ε α → σ → Prop} {p : Program Op Answer ε α} (alone : Alone serve Usual post p s)
    (implies : ∀ result s, post result s → weaker result s) : Alone serve Usual weaker p s := by
  induction p generalizing s with
  | done value => exact implies _ s alone
  | fail error => exact implies _ s alone
  | call op resume ih => exact fun c usual => ih _ (alone c usual)

-- A loop over a list; the invariant speaks of the part already gone through.
theorem foldlM {I : List β → γ → σ → Prop} {f : γ → β → Program Op Answer ε γ} {items : List β}
    (body : ∀ seen item acc s, I seen acc s →
      Alone serve Usual (fun result now => ∃ value, result = .ok value ∧ I (seen ++ [item]) value now) (f acc item) s)
    {acc : γ} (start : I [] acc s) :
    Alone serve Usual (fun result now => ∃ value, result = .ok value ∧ I items value now) (items.foldlM f acc) s := by
  suffices from_ : ∀ seen rest acc s, items = seen ++ rest → I seen acc s →
      Alone serve Usual (fun result now => ∃ value, result = .ok value ∧ I items value now) (rest.foldlM f acc) s from
    from_ [] items acc s rfl start
  intro seen rest
  induction rest generalizing seen with
  | nil =>
    intro acc s split held
    rw [split,List.append_nil]
    exact ⟨acc,rfl,held⟩
  | cons item rest ih =>
    intro acc s split held
    rw [List.foldlM_cons,bind_iff]
    refine weaken (body seen item acc s held) ?_
    intro _ now found
    obtain ⟨value,rfl,kept⟩ := found
    exact ih (seen ++ [item]) value now (by rw [split]; simp) kept

-- What holds however the calls are decided holds when fewer decisions are possible.
theorem fewer {Rare : χ → Prop} {post : Except ε α → σ → Prop} {p : Program Op Answer ε α}
    (alone : Alone serve Usual post p s) (inside : ∀ c, Rare c → Usual c) : Alone serve Rare post p s := by
  induction p generalizing s with
  | done value => exact alone
  | fail error => exact alone
  | call op resume ih => exact fun c rare => ih _ (alone c (inside c rare))

-- Two accounts of one program agree on some end of it.
theorem meet {Rare : χ → Prop} {post other : Except ε α → σ → Prop} {p : Program Op Answer ε α}
    (possible : ∃ c, Usual c ∧ Rare c) (alone : Alone serve Usual post p s) (alone' : Alone serve Rare other p s) :
    ∃ result now, post result now ∧ other result now := by
  induction p generalizing s with
  | done value => exact ⟨_,_,alone,alone'⟩
  | fail error => exact ⟨_,_,alone,alone'⟩
  | call op resume ih =>
    obtain ⟨c,usual,rare⟩ := possible
    exact ih _ (alone c usual) (alone' c rare)

theorem orFail_iff {post : Except ε α → σ → Prop} {convert : δ → ε} {given : Except δ α} :
    Alone serve Usual post (Program.orFail convert given : Program Op Answer ε α) s ↔
      post (given.mapError convert) s := by
  cases given with
  | ok value => exact Iff.rfl
  | error error => exact Iff.rfl

-- The caller of an attempt looks at both its ends.
theorem attempt_iff {post : Except δ (Except ε α) → σ → Prop} {p : Program Op Answer ε α} :
    Alone serve Usual post (p.attempt : Program Op Answer δ (Except ε α)) s ↔
      Alone serve Usual (fun result now => post (.ok result) now) p s := by
  induction p generalizing s with
  | done value => exact Iff.rfl
  | fail error => exact Iff.rfl
  | call op resume ih => exact forall_congr' (fun c => imp_congr_right (fun _ => ih _))

-- A step of the program that makes no call.
theorem orFail_bind_ok {post : Except ε β → σ → Prop} {convert : δ → ε} {given : Except δ α} {value : α}
    {next : α → Program Op Answer ε β} (ok : given = .ok value) :
    Alone serve Usual post (Program.orFail convert given >>= next) s ↔ Alone serve Usual post (next value) s := by
  rw [bind_iff,orFail_iff,ok]
  exact Iff.rfl

theorem orFail_bind_error {post : Except ε β → σ → Prop} {convert : δ → ε} {given : Except δ α} {error : δ}
    {next : α → Program Op Answer ε β} (failed : given = .error error) :
    Alone serve Usual post (Program.orFail convert given >>= next) s ↔ post (.error (convert error)) s := by
  rw [bind_iff,orFail_iff,failed]
  exact Iff.rfl

end Alone
end MemWal.Library
