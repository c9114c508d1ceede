import DesignByNumbers.Diagnostic

/-!
# Proofs.Content — what tokens say wherever they stand

The kind and the text of a token are its content. Reading depends on the place of a token
only where a place is reported, so that texts are compared by their contents.

* `verify_eq_ok_iff` — verification accepts the sequences whose contents are all well formed.
-/

namespace DesignByNumbers

namespace Token

/-- What a token says wherever it stands. -/
structure Content where
  kind : Kind
  text : String
deriving Repr, DecidableEq

/-- The kind and the text of a token. -/
def content (token : Token) : Content := ⟨token.kind, token.text⟩

namespace Content

/-- A symbol wherever it stands. -/
abbrev symbol (text : String) : Content := ⟨.symbol, text⟩

/-- A word wherever it stands. -/
abbrev word (text : String) : Content := ⟨.word, text⟩

/-- A number wherever it stands. -/
abbrev number (text : String) : Content := ⟨.number, text⟩

/-- Whether a text has the shape of its kind. -/
def isWellFormed (content : Content) : Bool :=
  content.kind.admits content.text

end Content

theorem kind_of_content {token : Token} {said : Content} (h : token.content = said) :
    token.kind = said.kind :=
  congrArg Content.kind h

theorem text_of_content {token : Token} {said : Content} (h : token.content = said) :
    token.text = said.text :=
  congrArg Content.text h

theorem isSymbol_iff {token : Token} {text : String} :
    token.isSymbol text = true ↔ token.content = .symbol text := by
  simp [Token.isSymbol, content]

theorem isWellFormed_of_verify {tokens : List Token} (h : Token.verify tokens = .ok ()) :
    ∀ token ∈ tokens, token.isWellFormed = true := by
  intro token hToken
  rw [Token.verify] at h
  split at h
  next hFind =>
    have hNone := List.find?_eq_none.mp hFind token hToken
    simpa using hNone
  next => cases h

theorem verify_of_isWellFormed {tokens : List Token}
    (h : ∀ token ∈ tokens, token.isWellFormed = true) : Token.verify tokens = .ok () := by
  have hFind : tokens.find? (fun token => !token.isWellFormed) = none :=
    List.find?_eq_none.mpr fun token hToken => by simp [h token hToken]
  rw [Token.verify, hFind]

/-- Verification accepts the sequences whose contents are all well formed. -/
theorem verify_eq_ok_iff {tokens : List Token} :
    Token.verify tokens = .ok () ↔
      ∀ said ∈ tokens.map content, said.isWellFormed = true := by
  rw [List.forall_mem_map]
  exact ⟨isWellFormed_of_verify, verify_of_isWellFormed⟩

end Token

end DesignByNumbers
