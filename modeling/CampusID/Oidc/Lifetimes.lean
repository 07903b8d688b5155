import CampusID.Lib.SpentMarker
import CampusID.Oidc.Grants
import Mathlib.Algebra.Order.Group.Int

/-!
# The lifetimes of credentials and markers

Codes and refresh tokens are both records guarded by a spent marker, with the
lifetime of their kind.  `Expiries` says so of a table of string keys, and there is
one lemma for every kind of write the grant store makes.
-/

namespace CampusID
namespace GrantStore

open Lib

variable (st : GrantStore)

/-- Expiry instants are in order: records die within their lifetime from now, and
their spent markers outlive them. -/
structure Expiries (m : Table Key Key.Value Int) (now : Int) : Prop where
  code : Guarded Key.code Key.codeSpent st.codeLife m now
  refresh : Guarded Key.refresh Key.refreshSpent st.refreshLife m now

namespace Expiries

variable {st} {m : Table Key Key.Value Int} {now : Int}

theorem code_injective : Function.Injective Key.code := fun _ _ h => Key.code.inj h

theorem codeSpent_injective : Function.Injective Key.codeSpent := fun _ _ h => Key.codeSpent.inj h

theorem refresh_injective : Function.Injective Key.refresh := fun _ _ h => Key.refresh.inj h

theorem refreshSpent_injective : Function.Injective Key.refreshSpent :=
  fun _ _ h => Key.refreshSpent.inj h

theorem empty (now : Int) : st.Expiries Table.empty now := ⟨.empty _ _ _ _, .empty _ _ _ _⟩

theorem later (h : st.Expiries m now) {now' : Int} (le : now ≤ now') : st.Expiries m now' :=
  ⟨h.code.later le, h.refresh.later le⟩

theorem putCode (h : st.Expiries m now) {d : String} (hd : m (.code d) = none)
    (g : AuthorizationCode) : st.Expiries (m.put (.code d) g (some (now + st.codeLife))) now :=
  ⟨h.code.put_record code_injective (by simp) hd g, h.refresh.put_other (by simp) (by simp) _ _⟩

theorem putRefresh (h : st.Expiries m now) {d : String} (hd : m (.refresh d) = none)
    (x : RefreshToken) :
    st.Expiries (m.put (.refresh d) x (some (now + st.refreshLife))) now :=
  ⟨h.code.put_other (by simp) (by simp) _ _, h.refresh.put_record refresh_injective (by simp) hd x⟩

theorem spendCode (h : st.Expiries m now) {d : String} (hd : m (.code d) ≠ none) :
    st.Expiries (m.put (.codeSpent d) () (some (now + st.codeLife))) now :=
  ⟨h.code.put_marker codeSpent_injective (by simp) hd (),
    h.refresh.put_other (by simp) (by simp) _ _⟩

theorem spendRefresh (h : st.Expiries m now) {d : String} (hd : m (.refresh d) ≠ none) :
    st.Expiries (m.put (.refreshSpent d) () (some (now + st.refreshLife))) now :=
  ⟨h.code.put_other (by simp) (by simp) _ _,
    h.refresh.put_marker refreshSpent_injective (by simp) hd ()⟩

theorem mark (h : st.Expiries m now) (F : String) (x : Option Int) :
    st.Expiries (m.put (.familyRevoked F) () x) now :=
  ⟨h.code.put_other (by simp) (by simp) _ _, h.refresh.put_other (by simp) (by simp) _ _⟩

/-- A session written or dropped: any table that agrees on codes, refresh tokens and
their markers. -/
theorem congr (h : st.Expiries m now) {m' : Table Key Key.Value Int}
    (hc : ∀ d, m' (.code d) = m (.code d)) (hcs : ∀ d, m' (.codeSpent d) = m (.codeSpent d))
    (hr : ∀ d, m' (.refresh d) = m (.refresh d))
    (hrs : ∀ d, m' (.refreshSpent d) = m (.refreshSpent d)) : st.Expiries m' now :=
  ⟨h.code.congr hc hcs, h.refresh.congr hr hrs⟩

end Expiries

end GrantStore
end CampusID
