import TaggedRecords.Json.Document
import TaggedRecords.Json.Form

/-!
# Handles — what a store calls its wallets and searches

Both are integers of 32 bits on the wire.  They have types of their own, so that neither can be
passed where the other is meant; a store issues them from one sequence.
-/

namespace TaggedRecords

/-- The handle of an open wallet. -/
structure WalletHandle where
  raw : Int32
  deriving DecidableEq, Repr

/-- The handle of an open search. -/
structure SearchHandle where
  raw : Int32
  deriving DecidableEq, Repr

namespace WalletHandle

instance : Ord WalletHandle := ⟨fun a b => compare a.raw b.raw⟩

instance : Std.TransOrd WalletHandle where
  eq_swap {a b} := (Std.OrientedOrd.eq_swap : compare a.raw b.raw = _)
  isLE_trans {a b c} h h' :=
    (Std.TransOrd.isLE_trans (h : (compare a.raw b.raw).isLE) h' : (compare a.raw c.raw).isLE)

instance : Std.LawfulEqOrd WalletHandle where
  compare_self {a} := (Std.ReflOrd.compare_self : compare a.raw a.raw = .eq)
  eq_of_compare {a b} h := by
    cases a; cases b; exact congrArg _ (Std.LawfulEqOrd.eq_of_compare h)

/-- A wallet as messages name it. -/
def label (h : WalletHandle) : String := "wallet#" ++ toString h.raw.toInt

/-- A handle shown with its kind. -/
def inspect (h : WalletHandle) : String := "WalletHandle(" ++ toString h.raw.toInt ++ ")"

/-- The wire text of a handle. -/
def encode (h : WalletHandle) : String := Json.Document.write (.number (.integer h.raw.toInt))

/-- The handle of a wire text. -/
def decode (text : String) : Except Json.Error WalletHandle :=
  (return ⟨← Json.Reader.word32⟩ : Json.Reader WalletHandle).run text

end WalletHandle

namespace SearchHandle

instance : Ord SearchHandle := ⟨fun a b => compare a.raw b.raw⟩

instance : Std.TransOrd SearchHandle where
  eq_swap {a b} := (Std.OrientedOrd.eq_swap : compare a.raw b.raw = _)
  isLE_trans {a b c} h h' :=
    (Std.TransOrd.isLE_trans (h : (compare a.raw b.raw).isLE) h' : (compare a.raw c.raw).isLE)

instance : Std.LawfulEqOrd SearchHandle where
  compare_self {a} := (Std.ReflOrd.compare_self : compare a.raw a.raw = .eq)
  eq_of_compare {a b} h := by
    cases a; cases b; exact congrArg _ (Std.LawfulEqOrd.eq_of_compare h)

/-- A search as messages name it. -/
def label (h : SearchHandle) : String := "search#" ++ toString h.raw.toInt

/-- A handle shown with its kind. -/
def inspect (h : SearchHandle) : String := "SearchHandle(" ++ toString h.raw.toInt ++ ")"

/-- The wire text of a handle. -/
def encode (h : SearchHandle) : String := Json.Document.write (.number (.integer h.raw.toInt))

/-- The handle of a wire text. -/
def decode (text : String) : Except Json.Error SearchHandle :=
  (return ⟨← Json.Reader.word32⟩ : Json.Reader SearchHandle).run text

end SearchHandle

end TaggedRecords
