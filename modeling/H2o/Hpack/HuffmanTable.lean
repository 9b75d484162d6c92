/-
The Huffman tables of `lib/http2/hpack_huffman_table.h`.

`huffSymTable` gives each of the 256 octets, and last the end-of-string
symbol, its code: the number of bits and the code, right aligned.

`huffDecodeTable` decodes four bits at a time. A state has sixteen entries of
the next state, the flags and the symbol emitted; each line below is eight
entries of six hex digits (two for each of the three), so that a state is two
consecutive lines.
-/
import Mathlib.Tactic

namespace H2o.Hpack

/-- `huff_sym_table`: `nbits` and `code` of each symbol. -/
def huffSymTable : List (Nat × Nat) := [
  (13, 0x1ff8), (23, 0x7fffd8), (28, 0xfffffe2), (28, 0xfffffe3),
  (28, 0xfffffe4), (28, 0xfffffe5), (28, 0xfffffe6), (28, 0xfffffe7),
  (28, 0xfffffe8), (24, 0xffffea), (30, 0x3ffffffc), (28, 0xfffffe9),
  (28, 0xfffffea), (30, 0x3ffffffd), (28, 0xfffffeb), (28, 0xfffffec),
  (28, 0xfffffed), (28, 0xfffffee), (28, 0xfffffef), (28, 0xffffff0),
  (28, 0xffffff1), (28, 0xffffff2), (30, 0x3ffffffe), (28, 0xffffff3),
  (28, 0xffffff4), (28, 0xffffff5), (28, 0xffffff6), (28, 0xffffff7),
  (28, 0xffffff8), (28, 0xffffff9), (28, 0xffffffa), (28, 0xffffffb),
  (6, 0x14), (10, 0x3f8), (10, 0x3f9), (12, 0xffa), (13, 0x1ff9), (6, 0x15),
  (8, 0xf8), (11, 0x7fa), (10, 0x3fa), (10, 0x3fb), (8, 0xf9), (11, 0x7fb),
  (8, 0xfa), (6, 0x16), (6, 0x17), (6, 0x18), (5, 0x0), (5, 0x1), (5, 0x2),
  (6, 0x19), (6, 0x1a), (6, 0x1b), (6, 0x1c), (6, 0x1d), (6, 0x1e),
  (6, 0x1f), (7, 0x5c), (8, 0xfb), (15, 0x7ffc), (6, 0x20), (12, 0xffb),
  (10, 0x3fc), (13, 0x1ffa), (6, 0x21), (7, 0x5d), (7, 0x5e), (7, 0x5f),
  (7, 0x60), (7, 0x61), (7, 0x62), (7, 0x63), (7, 0x64), (7, 0x65),
  (7, 0x66), (7, 0x67), (7, 0x68), (7, 0x69), (7, 0x6a), (7, 0x6b),
  (7, 0x6c), (7, 0x6d), (7, 0x6e), (7, 0x6f), (7, 0x70), (7, 0x71),
  (7, 0x72), (8, 0xfc), (7, 0x73), (8, 0xfd), (13, 0x1ffb), (19, 0x7fff0),
  (13, 0x1ffc), (14, 0x3ffc), (6, 0x22), (15, 0x7ffd), (5, 0x3), (6, 0x23),
  (5, 0x4), (6, 0x24), (5, 0x5), (6, 0x25), (6, 0x26), (6, 0x27), (5, 0x6),
  (7, 0x74), (7, 0x75), (6, 0x28), (6, 0x29), (6, 0x2a), (5, 0x7), (6, 0x2b),
  (7, 0x76), (6, 0x2c), (5, 0x8), (5, 0x9), (6, 0x2d), (7, 0x77), (7, 0x78),
  (7, 0x79), (7, 0x7a), (7, 0x7b), (15, 0x7ffe), (11, 0x7fc), (14, 0x3ffd),
  (13, 0x1ffd), (28, 0xffffffc), (20, 0xfffe6), (22, 0x3fffd2),
  (20, 0xfffe7), (20, 0xfffe8), (22, 0x3fffd3), (22, 0x3fffd4),
  (22, 0x3fffd5), (23, 0x7fffd9), (22, 0x3fffd6), (23, 0x7fffda),
  (23, 0x7fffdb), (23, 0x7fffdc), (23, 0x7fffdd), (23, 0x7fffde),
  (24, 0xffffeb), (23, 0x7fffdf), (24, 0xffffec), (24, 0xffffed),
  (22, 0x3fffd7), (23, 0x7fffe0), (24, 0xffffee), (23, 0x7fffe1),
  (23, 0x7fffe2), (23, 0x7fffe3), (23, 0x7fffe4), (21, 0x1fffdc),
  (22, 0x3fffd8), (23, 0x7fffe5), (22, 0x3fffd9), (23, 0x7fffe6),
  (23, 0x7fffe7), (24, 0xffffef), (22, 0x3fffda), (21, 0x1fffdd),
  (20, 0xfffe9), (22, 0x3fffdb), (22, 0x3fffdc), (23, 0x7fffe8),
  (23, 0x7fffe9), (21, 0x1fffde), (23, 0x7fffea), (22, 0x3fffdd),
  (22, 0x3fffde), (24, 0xfffff0), (21, 0x1fffdf), (22, 0x3fffdf),
  (23, 0x7fffeb), (23, 0x7fffec), (21, 0x1fffe0), (21, 0x1fffe1),
  (22, 0x3fffe0), (21, 0x1fffe2), (23, 0x7fffed), (22, 0x3fffe1),
  (23, 0x7fffee), (23, 0x7fffef), (20, 0xfffea), (22, 0x3fffe2),
  (22, 0x3fffe3), (22, 0x3fffe4), (23, 0x7ffff0), (22, 0x3fffe5),
  (22, 0x3fffe6), (23, 0x7ffff1), (26, 0x3ffffe0), (26, 0x3ffffe1),
  (20, 0xfffeb), (19, 0x7fff1), (22, 0x3fffe7), (23, 0x7ffff2),
  (22, 0x3fffe8), (25, 0x1ffffec), (26, 0x3ffffe2), (26, 0x3ffffe3),
  (26, 0x3ffffe4), (27, 0x7ffffde), (27, 0x7ffffdf), (26, 0x3ffffe5),
  (24, 0xfffff1), (25, 0x1ffffed), (19, 0x7fff2), (21, 0x1fffe3),
  (26, 0x3ffffe6), (27, 0x7ffffe0), (27, 0x7ffffe1), (26, 0x3ffffe7),
  (27, 0x7ffffe2), (24, 0xfffff2), (21, 0x1fffe4), (21, 0x1fffe5),
  (26, 0x3ffffe8), (26, 0x3ffffe9), (28, 0xffffffd), (27, 0x7ffffe3),
  (27, 0x7ffffe4), (27, 0x7ffffe5), (20, 0xfffec), (24, 0xfffff3),
  (20, 0xfffed), (21, 0x1fffe6), (22, 0x3fffe9), (21, 0x1fffe7),
  (21, 0x1fffe8), (23, 0x7ffff3), (22, 0x3fffea), (22, 0x3fffeb),
  (25, 0x1ffffee), (25, 0x1ffffef), (24, 0xfffff4), (24, 0xfffff5),
  (26, 0x3ffffea), (23, 0x7ffff4), (26, 0x3ffffeb), (27, 0x7ffffe6),
  (26, 0x3ffffec), (26, 0x3ffffed), (27, 0x7ffffe7), (27, 0x7ffffe8),
  (27, 0x7ffffe9), (27, 0x7ffffea), (27, 0x7ffffeb), (28, 0xffffffe),
  (27, 0x7ffffec), (27, 0x7ffffed), (27, 0x7ffffee), (27, 0x7ffffef),
  (27, 0x7fffff0), (26, 0x3ffffee), (30, 0x3fffffff)]

/-- `huff_decode_table`, eight entries a number. -/
def huffDecodeTable : List Nat := [
  0x0400000500000700000800000b00000c0000100000130000,
  0x1900001c00002000002300002a0000310000390000400100,
  0x00033000033100033200036100036300036500036900036f,
  0x0003730003740d00000e0000110000120000140000150000,
  0x010230160330010231160331010232160332010261160361,
  0x01026316036301026516036501026916036901026f16036f,
  0x020230090230170230280330020231090231170231280331,
  0x020232090232170232280332020261090261170261280361,
  0x0302300602300a02300f02301802301f0230290230380330,
  0x0302310602310a02310f02311802311f0231290231380331,
  0x0302320602320a02320f02321802321f0232290232380332,
  0x0302610602610a02610f02611802611f0261290261380361,
  0x020263090263170263280363020265090265170265280365,
  0x02026909026917026928036902026f09026f17026f28036f,
  0x0302630602630a02630f02631802631f0263290263380363,
  0x0302650602650a02650f02651802651f0265290265380365,
  0x0302690602690a02690f02691802691f0269290269380369,
  0x03026f06026f0a026f0f026f18026f1f026f29026f38036f,
  0x010273160373010274160374000b2000032500032d00032e,
  0x000b2f000333000334000335000336000337000338000339,
  0x020273090273170273280373020274090274170274280374,
  0x010a20160b2001022516032501022d16032d01022e16032e,
  0x0302730602730a02730f02731802731f0273290273380373,
  0x0302740602740a02740f02741802741f0274290274380374,
  0x020a20090a20170a20280b20020225090225170225280325,
  0x02022d09022d17022d28032d02022e09022e17022e28032e,
  0x030a20060a200a0a200f0a20180a201f0a20290a20380b20,
  0x0302250602250a02250f02251802251f0225290225380325,
  0x03022d06022d0a022d0f022d18022d1f022d29022d38032d,
  0x03022e06022e0a022e0f022e18022e1f022e29022e38032e,
  0x010a2f160b2f010233160333010234160334010235160335,
  0x010236160336010237160337010238160338010239160339,
  0x020a2f090a2f170a2f280b2f020233090233170233280333,
  0x020234090234170234280334020235090235170235280335,
  0x030a2f060a2f0a0a2f0f0a2f180a2f1f0a2f290a2f380b2f,
  0x0302330602330a02330f02331802331f0233290233380333,
  0x0302340602340a02340f02341802341f0234290234380334,
  0x0302350602350a02350f02351802351f0235290235380335,
  0x020236090236170236280336020237090237170237280337,
  0x020238090238170238280338020239090239170239280339,
  0x0302360602360a02360f02361802361f0236290236380336,
  0x0302370602370a02370f02371802371f0237290237380337,
  0x0302380602380a02380f02381802381f0238290238380338,
  0x0302390602390a02390f02391802391f0239290239380339,
  0x1a00001b00001d00001e0000210000220000240000250000,
  0x2b00002e00003200003500003a00003d0000410000440100,
  0x000b3d002b4100035f000362000364000366000367000368,
  0x00036c00036d00036e000370000372000375260000270000,
  0x010a3d160b3d012a41162b4101025f16035f010262160362,
  0x010264160364010266160366010267160367010268160368,
  0x020a3d090a3d170a3d280b3d022a41092a41172a41282b41,
  0x02025f09025f17025f28035f020262090262170262280362,
  0x030a3d060a3d0a0a3d0f0a3d180a3d1f0a3d290a3d380b3d,
  0x032a41062a410a2a410f2a41182a411f2a41292a41382b41,
  0x03025f06025f0a025f0f025f18025f1f025f29025f38035f,
  0x0302620602620a02620f02621802621f0262290262380362,
  0x020264090264170264280364020266090266170266280366,
  0x020267090267170267280367020268090268170268280368,
  0x0302640602640a02640f02641802641f0264290264380364,
  0x0302660602660a02660f02661802661f0266290266380366,
  0x0302670602670a02670f02671802671f0267290267380367,
  0x0302680602680a02680f02681802681f0268290268380368,
  0x01026c16036c01026d16036d01026e16036e010270160370,
  0x010272160372010275160375000b3a002b42002b43002b44,
  0x02026c09026c17026c28036c02026d09026d17026d28036d,
  0x02026e09026e17026e28036e020270090270170270280370,
  0x03026c06026c0a026c0f026c18026c1f026c29026c38036c,
  0x03026d06026d0a026d0f026d18026d1f026d29026d38036d,
  0x03026e06026e0a026e0f026e18026e1f026e29026e38036e,
  0x0302700602700a02700f02701802701f0270290270380370,
  0x020272090272170272280372020275090275170275280375,
  0x010a3a160b3a012a42162b42012a43162b43012a44162b44,
  0x0302720602720a02720f02721802721f0272290272380372,
  0x0302750602750a02750f02751802751f0275290275380375,
  0x020a3a090a3a170a3a280b3a022a42092a42172a42282b42,
  0x022a43092a43172a43282b43022a44092a44172a44282b44,
  0x030a3a060a3a0a0a3a0f0a3a180a3a1f0a3a290a3a380b3a,
  0x032a42062a420a2a420f2a42182a421f2a42292a42382b42,
  0x032a43062a430a2a430f2a43182a431f2a43292a43382b43,
  0x032a44062a440a2a440f2a44182a441f2a44292a44382b44,
  0x2c00002d00002f0000300000330000340000360000370000,
  0x3b00003c00003e00003f0000420000430000450000480100,
  0x002b45002b46002b47002b48002b49002b4a002b4b002b4c,
  0x002b4d002b4e002b4f002b50002b51002b52002b53002b54,
  0x012a45162b45012a46162b46012a47162b47012a48162b48,
  0x012a49162b49012a4a162b4a012a4b162b4b012a4c162b4c,
  0x022a45092a45172a45282b45022a46092a46172a46282b46,
  0x022a47092a47172a47282b47022a48092a48172a48282b48,
  0x032a45062a450a2a450f2a45182a451f2a45292a45382b45,
  0x032a46062a460a2a460f2a46182a461f2a46292a46382b46,
  0x032a47062a470a2a470f2a47182a471f2a47292a47382b47,
  0x032a48062a480a2a480f2a48182a481f2a48292a48382b48,
  0x022a49092a49172a49282b49022a4a092a4a172a4a282b4a,
  0x022a4b092a4b172a4b282b4b022a4c092a4c172a4c282b4c,
  0x032a49062a490a2a490f2a49182a491f2a49292a49382b49,
  0x032a4a062a4a0a2a4a0f2a4a182a4a1f2a4a292a4a382b4a,
  0x032a4b062a4b0a2a4b0f2a4b182a4b1f2a4b292a4b382b4b,
  0x032a4c062a4c0a2a4c0f2a4c182a4c1f2a4c292a4c382b4c,
  0x012a4d162b4d012a4e162b4e012a4f162b4f012a50162b50,
  0x012a51162b51012a52162b52012a53162b53012a54162b54,
  0x022a4d092a4d172a4d282b4d022a4e092a4e172a4e282b4e,
  0x022a4f092a4f172a4f282b4f022a50092a50172a50282b50,
  0x032a4d062a4d0a2a4d0f2a4d182a4d1f2a4d292a4d382b4d,
  0x032a4e062a4e0a2a4e0f2a4e182a4e1f2a4e292a4e382b4e,
  0x032a4f062a4f0a2a4f0f2a4f182a4f1f2a4f292a4f382b4f,
  0x032a50062a500a2a500f2a50182a501f2a50292a50382b50,
  0x022a51092a51172a51282b51022a52092a52172a52282b52,
  0x022a53092a53172a53282b53022a54092a54172a54282b54,
  0x032a51062a510a2a510f2a51182a511f2a51292a51382b51,
  0x032a52062a520a2a520f2a52182a521f2a52292a52382b52,
  0x032a53062a530a2a530f2a53182a531f2a53292a53382b53,
  0x032a54062a540a2a540f2a54182a541f2a54292a54382b54,
  0x002b55002b56002b57002b5900036a00036b000371000376,
  0x00037700037800037900037a4600004700004900004a0100,
  0x012a55162b55012a56162b56012a57162b57012a59162b59,
  0x01026a16036a01026b16036b010271160371010276160376,
  0x022a55092a55172a55282b55022a56092a56172a56282b56,
  0x022a57092a57172a57282b57022a59092a59172a59282b59,
  0x032a55062a550a2a550f2a55182a551f2a55292a55382b55,
  0x032a56062a560a2a560f2a56182a561f2a56292a56382b56,
  0x032a57062a570a2a570f2a57182a571f2a57292a57382b57,
  0x032a59062a590a2a590f2a59182a591f2a59292a59382b59,
  0x02026a09026a17026a28036a02026b09026b17026b28036b,
  0x020271090271170271280371020276090276170276280376,
  0x03026a06026a0a026a0f026a18026a1f026a29026a38036a,
  0x03026b06026b0a026b0f026b18026b1f026b29026b38036b,
  0x0302710602710a02710f02711802711f0271290271380371,
  0x0302760602760a02760f02761802761f0276290276380376,
  0x01027716037701027816037801027916037901027a16037a,
  0x00032600032a000b2c000b3b002b58002b5a4b00004e0000,
  0x020277090277170277280377020278090278170278280378,
  0x02027909027917027928037902027a09027a17027a28037a,
  0x0302770602770a02770f02771802771f0277290277380377,
  0x0302780602780a02780f02781802781f0278290278380378,
  0x0302790602790a02790f02791802791f0279290279380379,
  0x03027a06027a0a027a0f027a18027a1f027a29027a38037a,
  0x01022616032601022a16032a010a2c160b2c010a3b160b3b,
  0x012a58162b58012a5a162b5a4c00004d00004f0000510000,
  0x02022609022617022628032602022a09022a17022a28032a,
  0x020a2c090a2c170a2c280b2c020a3b090a3b170a3b280b3b,
  0x0302260602260a02260f02261802261f0226290226380326,
  0x03022a06022a0a022a0f022a18022a1f022a29022a38032a,
  0x030a2c060a2c0a0a2c0f0a2c180a2c1f0a2c290a2c380b2c,
  0x030a3b060a3b0a0a3b0f0a3b180a3b1f0a3b290a3b380b3b,
  0x022a58092a58172a58282b58022a5a092a5a172a5a282b5a,
  0x000321000b22000b28000b29000b3f500000520000540000,
  0x032a58062a580a2a580f2a58182a581f2a58292a58382b58,
  0x032a5a062a5a0a2a5a0f2a5a182a5a1f2a5a292a5a382b5a,
  0x010221160321010a22160b22010a28160b28010a29160b29,
  0x010a3f160b3f00032700032b00037c530000550000580000,
  0x020221090221170221280321020a22090a22170a22280b22,
  0x020a28090a28170a28280b28020a29090a29170a29280b29,
  0x0302210602210a02210f02211802211f0221290221380321,
  0x030a22060a220a0a220f0a22180a221f0a22290a22380b22,
  0x030a28060a280a0a280f0a28180a281f0a28290a28380b28,
  0x030a29060a290a0a290f0a29180a291f0a29290a29380b29,
  0x020a3f090a3f170a3f280b3f01022716032701022b16032b,
  0x01027c16037c000323000b3e5600005700005900005a0000,
  0x030a3f060a3f0a0a3f0f0a3f180a3f1f0a3f290a3f380b3f,
  0x02022709022717022728032702022b09022b17022b28032b,
  0x0302270602270a02270f02271802271f0227290227380327,
  0x03022b06022b0a022b0f022b18022b1f022b29022b38032b,
  0x02027c09027c17027c28037c010223160323010a3e160b3e,
  0x001b00000324000b40000b5b000b5d00037e5b00005c0000,
  0x03027c06027c0a027c0f027c18027c1f027c29027c38037c,
  0x020223090223170223280323020a3e090a3e170a3e280b3e,
  0x0302230602230a02230f02231802231f0223290223380323,
  0x030a3e060a3e0a0a3e0f0a3e180a3e1f0a3e290a3e380b3e,
  0x011a00161b00010224160324010a40160b40010a5b160b5b,
  0x010a5d160b5d01027e16037e00035e000b7d5d00005e0000,
  0x021a00091a00171a00281b00020224090224170224280324,
  0x020a40090a40170a40280b40020a5b090a5b170a5b280b5b,
  0x031a00061a000a1a000f1a00181a001f1a00291a00381b00,
  0x0302240602240a02240f02241802241f0224290224380324,
  0x030a40060a400a0a400f0a40180a401f0a40290a40380b40,
  0x030a5b060a5b0a0a5b0f0a5b180a5b1f0a5b290a5b380b5b,
  0x020a5d090a5d170a5d280b5d02027e09027e17027e28037e,
  0x01025e16035e010a7d160b7d000b3c000360000b7b5f0000,
  0x030a5d060a5d0a0a5d0f0a5d180a5d1f0a5d290a5d380b5d,
  0x03027e06027e0a027e0f027e18027e1f027e29027e38037e,
  0x02025e09025e17025e28035e020a7d090a7d170a7d280b7d,
  0x010a3c160b3c010260160360010a7b160b7b6000006e0000,
  0x03025e06025e0a025e0f025e18025e1f025e29025e38035e,
  0x030a7d060a7d0a0a7d0f0a7d180a7d1f0a7d290a7d380b7d,
  0x020a3c090a3c170a3c280b3c020260090260170260280360,
  0x020a7b090a7b170a7b280b7b6100006500006f0000850000,
  0x030a3c060a3c0a0a3c0f0a3c180a3c1f0a3c290a3c380b3c,
  0x0302600602600a02600f02601802601f0260290260380360,
  0x030a7b060a7b0a0a7b0f0a7b180a7b1f0a7b290a7b380b7b,
  0x620000630000660000690000700000770000860000990000,
  0x000b5c000bc3000bd06400006700006800006a00006b0000,
  0x7100007400007800007e00008700008e00009a0000a90000,
  0x010a5c160b5c010ac3160bc3010ad0160bd0000b80000b82,
  0x000b83000ba2000bb8000bc2000be0000be26c00006d0000,
  0x020a5c090a5c170a5c280b5c020ac3090ac3170ac3280bc3,
  0x020ad0090ad0170ad0280bd0010a80160b80010a82160b82,
  0x030a5c060a5c0a0a5c0f0a5c180a5c1f0a5c290a5c380b5c,
  0x030ac3060ac30a0ac30f0ac3180ac31f0ac3290ac3380bc3,
  0x030ad0060ad00a0ad00f0ad0180ad01f0ad0290ad0380bd0,
  0x020a80090a80170a80280b80020a82090a82170a82280b82,
  0x030a80060a800a0a800f0a80180a801f0a80290a80380b80,
  0x030a82060a820a0a820f0a82180a821f0a82290a82380b82,
  0x010a83160b83010aa2160ba2010ab8160bb8010ac2160bc2,
  0x010ae0160be0010ae2160be2000b99000ba1000ba7000bac,
  0x020a83090a83170a83280b83020aa2090aa2170aa2280ba2,
  0x020ab8090ab8170ab8280bb8020ac2090ac2170ac2280bc2,
  0x030a83060a830a0a830f0a83180a831f0a83290a83380b83,
  0x030aa2060aa20a0aa20f0aa2180aa21f0aa2290aa2380ba2,
  0x030ab8060ab80a0ab80f0ab8180ab81f0ab8290ab8380bb8,
  0x030ac2060ac20a0ac20f0ac2180ac21f0ac2290ac2380bc2,
  0x020ae0090ae0170ae0280be0020ae2090ae2170ae2280be2,
  0x010a99160b99010aa1160ba1010aa7160ba7010aac160bac,
  0x030ae0060ae00a0ae00f0ae0180ae01f0ae0290ae0380be0,
  0x030ae2060ae20a0ae20f0ae2180ae21f0ae2290ae2380be2,
  0x020a99090a99170a99280b99020aa1090aa1170aa1280ba1,
  0x020aa7090aa7170aa7280ba7020aac090aac170aac280bac,
  0x030a99060a990a0a990f0a99180a991f0a99290a99380b99,
  0x030aa1060aa10a0aa10f0aa1180aa11f0aa1290aa1380ba1,
  0x030aa7060aa70a0aa70f0aa7180aa71f0aa7290aa7380ba7,
  0x030aac060aac0a0aac0f0aac180aac1f0aac290aac380bac,
  0x7200007300007500007600007900007b00007f0000820000,
  0x8800008b00008f00009200009b0000a20000aa0000b40000,
  0x000bb0000bb1000bb3000bd1000bd8000bd9000be3000be5,
  0x000be67a00007c00007d0000800000810000830000840000,
  0x010ab0160bb0010ab1160bb1010ab3160bb3010ad1160bd1,
  0x010ad8160bd8010ad9160bd9010ae3160be3010ae5160be5,
  0x020ab0090ab0170ab0280bb0020ab1090ab1170ab1280bb1,
  0x020ab3090ab3170ab3280bb3020ad1090ad1170ad1280bd1,
  0x030ab0060ab00a0ab00f0ab0180ab01f0ab0290ab0380bb0,
  0x030ab1060ab10a0ab10f0ab1180ab11f0ab1290ab1380bb1,
  0x030ab3060ab30a0ab30f0ab3180ab31f0ab3290ab3380bb3,
  0x030ad1060ad10a0ad10f0ad1180ad11f0ad1290ad1380bd1,
  0x020ad8090ad8170ad8280bd8020ad9090ad9170ad9280bd9,
  0x020ae3090ae3170ae3280be3020ae5090ae5170ae5280be5,
  0x030ad8060ad80a0ad80f0ad8180ad81f0ad8290ad8380bd8,
  0x030ad9060ad90a0ad90f0ad9180ad91f0ad9290ad9380bd9,
  0x030ae3060ae30a0ae30f0ae3180ae31f0ae3290ae3380be3,
  0x030ae5060ae50a0ae50f0ae5180ae51f0ae5290ae5380be5,
  0x010ae6160be6000b81000b84000b85000b86000b88000b92,
  0x000b9a000b9c000ba0000ba3000ba4000ba9000baa000bad,
  0x020ae6090ae6170ae6280be6010a81160b81010a84160b84,
  0x010a85160b85010a86160b86010a88160b88010a92160b92,
  0x030ae6060ae60a0ae60f0ae6180ae61f0ae6290ae6380be6,
  0x020a81090a81170a81280b81020a84090a84170a84280b84,
  0x030a81060a810a0a810f0a81180a811f0a81290a81380b81,
  0x030a84060a840a0a840f0a84180a841f0a84290a84380b84,
  0x020a85090a85170a85280b85020a86090a86170a86280b86,
  0x020a88090a88170a88280b88020a92090a92170a92280b92,
  0x030a85060a850a0a850f0a85180a851f0a85290a85380b85,
  0x030a86060a860a0a860f0a86180a861f0a86290a86380b86,
  0x030a88060a880a0a880f0a88180a881f0a88290a88380b88,
  0x030a92060a920a0a920f0a92180a921f0a92290a92380b92,
  0x010a9a160b9a010a9c160b9c010aa0160ba0010aa3160ba3,
  0x010aa4160ba4010aa9160ba9010aaa160baa010aad160bad,
  0x020a9a090a9a170a9a280b9a020a9c090a9c170a9c280b9c,
  0x020aa0090aa0170aa0280ba0020aa3090aa3170aa3280ba3,
  0x030a9a060a9a0a0a9a0f0a9a180a9a1f0a9a290a9a380b9a,
  0x030a9c060a9c0a0a9c0f0a9c180a9c1f0a9c290a9c380b9c,
  0x030aa0060aa00a0aa00f0aa0180aa01f0aa0290aa0380ba0,
  0x030aa3060aa30a0aa30f0aa3180aa31f0aa3290aa3380ba3,
  0x020aa4090aa4170aa4280ba4020aa9090aa9170aa9280ba9,
  0x020aaa090aaa170aaa280baa020aad090aad170aad280bad,
  0x030aa4060aa40a0aa40f0aa4180aa41f0aa4290aa4380ba4,
  0x030aa9060aa90a0aa90f0aa9180aa91f0aa9290aa9380ba9,
  0x030aaa060aaa0a0aaa0f0aaa180aaa1f0aaa290aaa380baa,
  0x030aad060aad0a0aad0f0aad180aad1f0aad290aad380bad,
  0x8900008a00008c00008d0000900000910000930000960000,
  0x9c00009f0000a30000a60000ab0000ae0000b50000be0000,
  0x000bb2000bb5000bb9000bba000bbb000bbd000bbe000bc4,
  0x000bc6000be4000be8000be9940000950000970000980000,
  0x010ab2160bb2010ab5160bb5010ab9160bb9010aba160bba,
  0x010abb160bbb010abd160bbd010abe160bbe010ac4160bc4,
  0x020ab2090ab2170ab2280bb2020ab5090ab5170ab5280bb5,
  0x020ab9090ab9170ab9280bb9020aba090aba170aba280bba,
  0x030ab2060ab20a0ab20f0ab2180ab21f0ab2290ab2380bb2,
  0x030ab5060ab50a0ab50f0ab5180ab51f0ab5290ab5380bb5,
  0x030ab9060ab90a0ab90f0ab9180ab91f0ab9290ab9380bb9,
  0x030aba060aba0a0aba0f0aba180aba1f0aba290aba380bba,
  0x020abb090abb170abb280bbb020abd090abd170abd280bbd,
  0x020abe090abe170abe280bbe020ac4090ac4170ac4280bc4,
  0x030abb060abb0a0abb0f0abb180abb1f0abb290abb380bbb,
  0x030abd060abd0a0abd0f0abd180abd1f0abd290abd380bbd,
  0x030abe060abe0a0abe0f0abe180abe1f0abe290abe380bbe,
  0x030ac4060ac40a0ac40f0ac4180ac41f0ac4290ac4380bc4,
  0x010ac6160bc6010ae4160be4010ae8160be8010ae9160be9,
  0x001b01000b87000b89000b8a000b8b000b8c000b8d000b8f,
  0x020ac6090ac6170ac6280bc6020ae4090ae4170ae4280be4,
  0x020ae8090ae8170ae8280be8020ae9090ae9170ae9280be9,
  0x030ac6060ac60a0ac60f0ac6180ac61f0ac6290ac6380bc6,
  0x030ae4060ae40a0ae40f0ae4180ae41f0ae4290ae4380be4,
  0x030ae8060ae80a0ae80f0ae8180ae81f0ae8290ae8380be8,
  0x030ae9060ae90a0ae90f0ae9180ae91f0ae9290ae9380be9,
  0x011a01161b01010a87160b87010a89160b89010a8a160b8a,
  0x010a8b160b8b010a8c160b8c010a8d160b8d010a8f160b8f,
  0x021a01091a01171a01281b01020a87090a87170a87280b87,
  0x020a89090a89170a89280b89020a8a090a8a170a8a280b8a,
  0x031a01061a010a1a010f1a01181a011f1a01291a01381b01,
  0x030a87060a870a0a870f0a87180a871f0a87290a87380b87,
  0x030a89060a890a0a890f0a89180a891f0a89290a89380b89,
  0x030a8a060a8a0a0a8a0f0a8a180a8a1f0a8a290a8a380b8a,
  0x020a8b090a8b170a8b280b8b020a8c090a8c170a8c280b8c,
  0x020a8d090a8d170a8d280b8d020a8f090a8f170a8f280b8f,
  0x030a8b060a8b0a0a8b0f0a8b180a8b1f0a8b290a8b380b8b,
  0x030a8c060a8c0a0a8c0f0a8c180a8c1f0a8c290a8c380b8c,
  0x030a8d060a8d0a0a8d0f0a8d180a8d1f0a8d290a8d380b8d,
  0x030a8f060a8f0a0a8f0f0a8f180a8f1f0a8f290a8f380b8f,
  0x9d00009e0000a00000a10000a40000a50000a70000a80000,
  0xac0000ad0000af0000b10000b60000b90000bf0000cf0000,
  0x000b93000b95000b96000b97000b98000b9b000b9d000b9e,
  0x000ba5000ba6000ba8000bae000baf000bb4000bb6000bb7,
  0x010a93160b93010a95160b95010a96160b96010a97160b97,
  0x010a98160b98010a9b160b9b010a9d160b9d010a9e160b9e,
  0x020a93090a93170a93280b93020a95090a95170a95280b95,
  0x020a96090a96170a96280b96020a97090a97170a97280b97,
  0x030a93060a930a0a930f0a93180a931f0a93290a93380b93,
  0x030a95060a950a0a950f0a95180a951f0a95290a95380b95,
  0x030a96060a960a0a960f0a96180a961f0a96290a96380b96,
  0x030a97060a970a0a970f0a97180a971f0a97290a97380b97,
  0x020a98090a98170a98280b98020a9b090a9b170a9b280b9b,
  0x020a9d090a9d170a9d280b9d020a9e090a9e170a9e280b9e,
  0x030a98060a980a0a980f0a98180a981f0a98290a98380b98,
  0x030a9b060a9b0a0a9b0f0a9b180a9b1f0a9b290a9b380b9b,
  0x030a9d060a9d0a0a9d0f0a9d180a9d1f0a9d290a9d380b9d,
  0x030a9e060a9e0a0a9e0f0a9e180a9e1f0a9e290a9e380b9e,
  0x010aa5160ba5010aa6160ba6010aa8160ba8010aae160bae,
  0x010aaf160baf010ab4160bb4010ab6160bb6010ab7160bb7,
  0x020aa5090aa5170aa5280ba5020aa6090aa6170aa6280ba6,
  0x020aa8090aa8170aa8280ba8020aae090aae170aae280bae,
  0x030aa5060aa50a0aa50f0aa5180aa51f0aa5290aa5380ba5,
  0x030aa6060aa60a0aa60f0aa6180aa61f0aa6290aa6380ba6,
  0x030aa8060aa80a0aa80f0aa8180aa81f0aa8290aa8380ba8,
  0x030aae060aae0a0aae0f0aae180aae1f0aae290aae380bae,
  0x020aaf090aaf170aaf280baf020ab4090ab4170ab4280bb4,
  0x020ab6090ab6170ab6280bb6020ab7090ab7170ab7280bb7,
  0x030aaf060aaf0a0aaf0f0aaf180aaf1f0aaf290aaf380baf,
  0x030ab4060ab40a0ab40f0ab4180ab41f0ab4290ab4380bb4,
  0x030ab6060ab60a0ab60f0ab6180ab61f0ab6290ab6380bb6,
  0x030ab7060ab70a0ab70f0ab7180ab71f0ab7290ab7380bb7,
  0x000bbc000bbf000bc5000be7000befb00000b20000b30000,
  0xb70000b80000ba0000bb0000c00000c70000d00000df0000,
  0x010abc160bbc010abf160bbf010ac5160bc5010ae7160be7,
  0x010aef160bef000b09000b8e000b90000b91000b94000b9f,
  0x020abc090abc170abc280bbc020abf090abf170abf280bbf,
  0x020ac5090ac5170ac5280bc5020ae7090ae7170ae7280be7,
  0x030abc060abc0a0abc0f0abc180abc1f0abc290abc380bbc,
  0x030abf060abf0a0abf0f0abf180abf1f0abf290abf380bbf,
  0x030ac5060ac50a0ac50f0ac5180ac51f0ac5290ac5380bc5,
  0x030ae7060ae70a0ae70f0ae7180ae71f0ae7290ae7380be7,
  0x020aef090aef170aef280bef010a09160b09010a8e160b8e,
  0x010a90160b90010a91160b91010a94160b94010a9f160b9f,
  0x030aef060aef0a0aef0f0aef180aef1f0aef290aef380bef,
  0x020a09090a09170a09280b09020a8e090a8e170a8e280b8e,
  0x030a09060a090a0a090f0a09180a091f0a09290a09380b09,
  0x030a8e060a8e0a0a8e0f0a8e180a8e1f0a8e290a8e380b8e,
  0x020a90090a90170a90280b90020a91090a91170a91280b91,
  0x020a94090a94170a94280b94020a9f090a9f170a9f280b9f,
  0x030a90060a900a0a900f0a90180a901f0a90290a90380b90,
  0x030a91060a910a0a910f0a91180a911f0a91290a91380b91,
  0x030a94060a940a0a940f0a94180a941f0a94290a94380b94,
  0x030a9f060a9f0a0a9f0f0a9f180a9f1f0a9f290a9f380b9f,
  0x000bab000bce000bd7000be1000bec000bedbc0000bd0000,
  0xc10000c40000c80000cb0000d10000d80000e00000ee0000,
  0x010aab160bab010ace160bce010ad7160bd7010ae1160be1,
  0x010aec160bec010aed160bed000bc7000bcf000bea000beb,
  0x020aab090aab170aab280bab020ace090ace170ace280bce,
  0x020ad7090ad7170ad7280bd7020ae1090ae1170ae1280be1,
  0x030aab060aab0a0aab0f0aab180aab1f0aab290aab380bab,
  0x030ace060ace0a0ace0f0ace180ace1f0ace290ace380bce,
  0x030ad7060ad70a0ad70f0ad7180ad71f0ad7290ad7380bd7,
  0x030ae1060ae10a0ae10f0ae1180ae11f0ae1290ae1380be1,
  0x020aec090aec170aec280bec020aed090aed170aed280bed,
  0x010ac7160bc7010acf160bcf010aea160bea010aeb160beb,
  0x030aec060aec0a0aec0f0aec180aec1f0aec290aec380bec,
  0x030aed060aed0a0aed0f0aed180aed1f0aed290aed380bed,
  0x020ac7090ac7170ac7280bc7020acf090acf170acf280bcf,
  0x020aea090aea170aea280bea020aeb090aeb170aeb280beb,
  0x030ac7060ac70a0ac70f0ac7180ac71f0ac7290ac7380bc7,
  0x030acf060acf0a0acf0f0acf180acf1f0acf290acf380bcf,
  0x030aea060aea0a0aea0f0aea180aea1f0aea290aea380bea,
  0x030aeb060aeb0a0aeb0f0aeb180aeb1f0aeb290aeb380beb,
  0xc20000c30000c50000c60000c90000ca0000cc0000cd0000,
  0xd20000d50000d90000dc0000e10000e70000ef0000f60000,
  0x000bc0000bc1000bc8000bc9000bca000bcd000bd2000bd5,
  0x000bda000bdb000bee000bf0000bf2000bf3000bffce0000,
  0x010ac0160bc0010ac1160bc1010ac8160bc8010ac9160bc9,
  0x010aca160bca010acd160bcd010ad2160bd2010ad5160bd5,
  0x020ac0090ac0170ac0280bc0020ac1090ac1170ac1280bc1,
  0x020ac8090ac8170ac8280bc8020ac9090ac9170ac9280bc9,
  0x030ac0060ac00a0ac00f0ac0180ac01f0ac0290ac0380bc0,
  0x030ac1060ac10a0ac10f0ac1180ac11f0ac1290ac1380bc1,
  0x030ac8060ac80a0ac80f0ac8180ac81f0ac8290ac8380bc8,
  0x030ac9060ac90a0ac90f0ac9180ac91f0ac9290ac9380bc9,
  0x020aca090aca170aca280bca020acd090acd170acd280bcd,
  0x020ad2090ad2170ad2280bd2020ad5090ad5170ad5280bd5,
  0x030aca060aca0a0aca0f0aca180aca1f0aca290aca380bca,
  0x030acd060acd0a0acd0f0acd180acd1f0acd290acd380bcd,
  0x030ad2060ad20a0ad20f0ad2180ad21f0ad2290ad2380bd2,
  0x030ad5060ad50a0ad50f0ad5180ad51f0ad5290ad5380bd5,
  0x010ada160bda010adb160bdb010aee160bee010af0160bf0,
  0x010af2160bf2010af3160bf3010aff160bff000bcb000bcc,
  0x020ada090ada170ada280bda020adb090adb170adb280bdb,
  0x020aee090aee170aee280bee020af0090af0170af0280bf0,
  0x030ada060ada0a0ada0f0ada180ada1f0ada290ada380bda,
  0x030adb060adb0a0adb0f0adb180adb1f0adb290adb380bdb,
  0x030aee060aee0a0aee0f0aee180aee1f0aee290aee380bee,
  0x030af0060af00a0af00f0af0180af01f0af0290af0380bf0,
  0x020af2090af2170af2280bf2020af3090af3170af3280bf3,
  0x020aff090aff170aff280bff010acb160bcb010acc160bcc,
  0x030af2060af20a0af20f0af2180af21f0af2290af2380bf2,
  0x030af3060af30a0af30f0af3180af31f0af3290af3380bf3,
  0x030aff060aff0a0aff0f0aff180aff1f0aff290aff380bff,
  0x020acb090acb170acb280bcb020acc090acc170acc280bcc,
  0x030acb060acb0a0acb0f0acb180acb1f0acb290acb380bcb,
  0x030acc060acc0a0acc0f0acc180acc1f0acc290acc380bcc,
  0xd30000d40000d60000d70000da0000db0000dd0000de0000,
  0xe20000e40000e80000eb0000f00000f30000f70000fa0000,
  0x000bd3000bd4000bd6000bdd000bde000bdf000bf1000bf4,
  0x000bf5000bf6000bf7000bf8000bfa000bfb000bfc000bfd,
  0x010ad3160bd3010ad4160bd4010ad6160bd6010add160bdd,
  0x010ade160bde010adf160bdf010af1160bf1010af4160bf4,
  0x020ad3090ad3170ad3280bd3020ad4090ad4170ad4280bd4,
  0x020ad6090ad6170ad6280bd6020add090add170add280bdd,
  0x030ad3060ad30a0ad30f0ad3180ad31f0ad3290ad3380bd3,
  0x030ad4060ad40a0ad40f0ad4180ad41f0ad4290ad4380bd4,
  0x030ad6060ad60a0ad60f0ad6180ad61f0ad6290ad6380bd6,
  0x030add060add0a0add0f0add180add1f0add290add380bdd,
  0x020ade090ade170ade280bde020adf090adf170adf280bdf,
  0x020af1090af1170af1280bf1020af4090af4170af4280bf4,
  0x030ade060ade0a0ade0f0ade180ade1f0ade290ade380bde,
  0x030adf060adf0a0adf0f0adf180adf1f0adf290adf380bdf,
  0x030af1060af10a0af10f0af1180af11f0af1290af1380bf1,
  0x030af4060af40a0af40f0af4180af41f0af4290af4380bf4,
  0x010af5160bf5010af6160bf6010af7160bf7010af8160bf8,
  0x010afa160bfa010afb160bfb010afc160bfc010afd160bfd,
  0x020af5090af5170af5280bf5020af6090af6170af6280bf6,
  0x020af7090af7170af7280bf7020af8090af8170af8280bf8,
  0x030af5060af50a0af50f0af5180af51f0af5290af5380bf5,
  0x030af6060af60a0af60f0af6180af61f0af6290af6380bf6,
  0x030af7060af70a0af70f0af7180af71f0af7290af7380bf7,
  0x030af8060af80a0af80f0af8180af81f0af8290af8380bf8,
  0x020afa090afa170afa280bfa020afb090afb170afb280bfb,
  0x020afc090afc170afc280bfc020afd090afd170afd280bfd,
  0x030afa060afa0a0afa0f0afa180afa1f0afa290afa380bfa,
  0x030afb060afb0a0afb0f0afb180afb1f0afb290afb380bfb,
  0x030afc060afc0a0afc0f0afc180afc1f0afc290afc380bfc,
  0x030afd060afd0a0afd0f0afd180afd1f0afd290afd380bfd,
  0x000bfee30000e50000e60000e90000ea0000ec0000ed0000,
  0xf10000f20000f40000f50000f80000f90000fb0000fc0000,
  0x010afe160bfe001b02001b03001b04001b05001b06001b07,
  0x001b08001b0b001b0c001b0e001b0f001b10001b11001b12,
  0x020afe090afe170afe280bfe011a02161b02011a03161b03,
  0x011a04161b04011a05161b05011a06161b06011a07161b07,
  0x030afe060afe0a0afe0f0afe180afe1f0afe290afe380bfe,
  0x021a02091a02171a02281b02021a03091a03171a03281b03,
  0x031a02061a020a1a020f1a02181a021f1a02291a02381b02,
  0x031a03061a030a1a030f1a03181a031f1a03291a03381b03,
  0x021a04091a04171a04281b04021a05091a05171a05281b05,
  0x021a06091a06171a06281b06021a07091a07171a07281b07,
  0x031a04061a040a1a040f1a04181a041f1a04291a04381b04,
  0x031a05061a050a1a050f1a05181a051f1a05291a05381b05,
  0x031a06061a060a1a060f1a06181a061f1a06291a06381b06,
  0x031a07061a070a1a070f1a07181a071f1a07291a07381b07,
  0x011a08161b08011a0b161b0b011a0c161b0c011a0e161b0e,
  0x011a0f161b0f011a10161b10011a11161b11011a12161b12,
  0x021a08091a08171a08281b08021a0b091a0b171a0b281b0b,
  0x021a0c091a0c171a0c281b0c021a0e091a0e171a0e281b0e,
  0x031a08061a080a1a080f1a08181a081f1a08291a08381b08,
  0x031a0b061a0b0a1a0b0f1a0b181a0b1f1a0b291a0b381b0b,
  0x031a0c061a0c0a1a0c0f1a0c181a0c1f1a0c291a0c381b0c,
  0x031a0e061a0e0a1a0e0f1a0e181a0e1f1a0e291a0e381b0e,
  0x021a0f091a0f171a0f281b0f021a10091a10171a10281b10,
  0x021a11091a11171a11281b11021a12091a12171a12281b12,
  0x031a0f061a0f0a1a0f0f1a0f181a0f1f1a0f291a0f381b0f,
  0x031a10061a100a1a100f1a10181a101f1a10291a10381b10,
  0x031a11061a110a1a110f1a11181a111f1a11291a11381b11,
  0x031a12061a120a1a120f1a12181a121f1a12291a12381b12,
  0x001b13001b14001b15001b17001b18001b19001b1a001b1b,
  0x001b1c001b1d001b1e001b1f001b7f000bdc000bf9fd0000,
  0x011a13161b13011a14161b14011a15161b15011a17161b17,
  0x011a18161b18011a19161b19011a1a161b1a011a1b161b1b,
  0x021a13091a13171a13281b13021a14091a14171a14281b14,
  0x021a15091a15171a15281b15021a17091a17171a17281b17,
  0x031a13061a130a1a130f1a13181a131f1a13291a13381b13,
  0x031a14061a140a1a140f1a14181a141f1a14291a14381b14,
  0x031a15061a150a1a150f1a15181a151f1a15291a15381b15,
  0x031a17061a170a1a170f1a17181a171f1a17291a17381b17,
  0x021a18091a18171a18281b18021a19091a19171a19281b19,
  0x021a1a091a1a171a1a281b1a021a1b091a1b171a1b281b1b,
  0x031a18061a180a1a180f1a18181a181f1a18291a18381b18,
  0x031a19061a190a1a190f1a19181a191f1a19291a19381b19,
  0x031a1a061a1a0a1a1a0f1a1a181a1a1f1a1a291a1a381b1a,
  0x031a1b061a1b0a1a1b0f1a1b181a1b1f1a1b291a1b381b1b,
  0x011a1c161b1c011a1d161b1d011a1e161b1e011a1f161b1f,
  0x011a7f161b7f010adc160bdc010af9160bf9fe0000ff0000,
  0x021a1c091a1c171a1c281b1c021a1d091a1d171a1d281b1d,
  0x021a1e091a1e171a1e281b1e021a1f091a1f171a1f281b1f,
  0x031a1c061a1c0a1a1c0f1a1c181a1c1f1a1c291a1c381b1c,
  0x031a1d061a1d0a1a1d0f1a1d181a1d1f1a1d291a1d381b1d,
  0x031a1e061a1e0a1a1e0f1a1e181a1e1f1a1e291a1e381b1e,
  0x031a1f061a1f0a1a1f0f1a1f181a1f1f1a1f291a1f381b1f,
  0x021a7f091a7f171a7f281b7f020adc090adc170adc280bdc,
  0x020af9090af9170af9280bf9001b0a001b0d001b16000400,
  0x031a7f061a7f0a1a7f0f1a7f181a7f1f1a7f291a7f381b7f,
  0x030adc060adc0a0adc0f0adc180adc1f0adc290adc380bdc,
  0x030af9060af90a0af90f0af9180af91f0af9290af9380bf9,
  0x011a0a161b0a011a0d161b0d011a16161b16000400000400,
  0x021a0a091a0a171a0a281b0a021a0d091a0d171a0d281b0d,
  0x021a16091a16171a16281b16000400000400000400000400,
  0x031a0a061a0a0a1a0a0f1a0a181a0a1f1a0a291a0a381b0a,
  0x031a0d061a0d0a1a0d0f1a0d181a0d1f1a0d291a0d381b0d,
  0x031a16061a160a1a160f1a16181a161f1a16291a16381b16,
  0x000400000400000400000400000400000400000400000400]

-- ==== data of the proofs

/-- What each state of the decode table stands for, which the source does not
store: a symbol and how many bits of its code have been read. -/
def huffStatePath : List (Nat × Nat) := [
  (0, 0), (32, 1), (48, 2), (48, 3), (48, 4), (50, 4), (99, 3), (99, 4),
  (105, 4), (32, 2), (32, 3), (115, 4), (32, 4), (32, 5), (45, 5), (47, 3),
  (47, 4), (47, 5), (52, 5), (54, 4), (54, 5), (56, 5), (0, 1), (58, 2),
  (61, 3), (61, 4), (61, 5), (95, 5), (100, 4), (100, 5), (103, 5), (58, 3),
  (108, 4), (108, 5), (110, 5), (58, 4), (114, 5), (58, 5), (58, 6), (67, 6),
  (0, 2), (69, 3), (69, 4), (69, 5), (69, 6), (71, 6), (73, 5), (73, 6),
  (75, 6), (77, 4), (77, 5), (77, 6), (79, 6), (81, 5), (81, 6), (83, 6),
  (0, 3), (85, 4), (85, 5), (85, 6), (87, 6), (106, 5), (106, 6), (113, 6),
  (0, 4), (119, 5), (119, 6), (121, 6), (0, 5), (38, 6), (38, 7), (44, 7),
  (0, 6), (88, 7), (0, 7), (33, 8), (33, 9), (40, 9), (0, 8), (39, 9),
  (39, 10), (0, 9), (35, 10), (35, 11), (0, 10), (0, 11), (0, 12), (64, 12),
  (1, 11), (93, 12), (1, 12), (94, 13), (1, 13), (60, 14), (1, 14), (1, 15),
  (92, 16), (92, 17), (92, 18), (128, 18), (128, 19), (131, 17), (131, 18),
  (131, 19), (184, 19), (153, 18), (224, 19), (153, 19), (153, 20),
  (167, 20), (1, 16), (129, 17), (176, 18), (176, 19), (176, 20), (179, 20),
  (216, 19), (216, 20), (227, 20), (129, 18), (129, 19), (129, 20),
  (129, 21), (133, 20), (133, 21), (136, 21), (154, 19), (154, 20),
  (154, 21), (160, 21), (164, 20), (164, 21), (170, 21), (1, 17), (1, 18),
  (178, 19), (178, 20), (178, 21), (185, 21), (187, 20), (187, 21),
  (190, 21), (1, 19), (198, 20), (198, 21), (232, 21), (1, 20), (1, 21),
  (1, 22), (137, 22), (139, 21), (139, 22), (141, 22), (2, 18), (147, 19),
  (147, 20), (147, 21), (147, 22), (150, 22), (152, 21), (152, 22),
  (157, 22), (165, 20), (165, 21), (165, 22), (168, 22), (175, 21),
  (175, 22), (182, 22), (2, 19), (9, 20), (188, 21), (188, 22), (197, 22),
  (9, 21), (9, 22), (9, 23), (144, 22), (144, 23), (148, 23), (2, 20),
  (171, 21), (171, 22), (171, 23), (215, 23), (199, 22), (236, 23),
  (199, 23), (199, 24), (234, 24), (2, 21), (192, 22), (192, 23), (192, 24),
  (192, 25), (200, 25), (202, 24), (202, 25), (210, 25), (203, 23),
  (218, 24), (218, 25), (238, 25), (203, 24), (242, 25), (203, 25),
  (203, 26), (2, 22), (211, 23), (211, 24), (211, 25), (211, 26), (214, 26),
  (222, 25), (222, 26), (241, 26), (245, 24), (245, 25), (245, 26),
  (247, 26), (250, 25), (250, 26), (252, 26), (2, 23), (2, 24), (2, 25),
  (2, 26), (2, 27), (4, 26), (4, 27), (6, 27), (8, 25), (8, 26), (8, 27),
  (12, 27), (15, 26), (15, 27), (17, 27), (10, 24), (19, 25), (19, 26),
  (19, 27), (21, 27), (24, 26), (24, 27), (26, 27), (10, 25), (28, 26),
  (28, 27), (30, 27), (10, 26), (127, 27), (10, 27), (10, 28), (10, 29),
  (22, 29)]

/-- The symbols in the order of their codes. -/
def huffOrder : List Nat := [
  48, 49, 50, 97, 99, 101, 105, 111, 115, 116, 32, 37, 45, 46, 47, 51, 52,
  53, 54, 55, 56, 57, 61, 65, 95, 98, 100, 102, 103, 104, 108, 109, 110, 112,
  114, 117, 58, 66, 67, 68, 69, 70, 71, 72, 73, 74, 75, 76, 77, 78, 79, 80,
  81, 82, 83, 84, 85, 86, 87, 89, 106, 107, 113, 118, 119, 120, 121, 122, 38,
  42, 44, 59, 88, 90, 33, 34, 40, 41, 63, 39, 43, 124, 35, 62, 0, 36, 64, 91,
  93, 126, 94, 125, 60, 96, 123, 92, 195, 208, 128, 130, 131, 162, 184, 194,
  224, 226, 153, 161, 167, 172, 176, 177, 179, 209, 216, 217, 227, 229, 230,
  129, 132, 133, 134, 136, 146, 154, 156, 160, 163, 164, 169, 170, 173, 178,
  181, 185, 186, 187, 189, 190, 196, 198, 228, 232, 233, 1, 135, 137, 138,
  139, 140, 141, 143, 147, 149, 150, 151, 152, 155, 157, 158, 165, 166, 168,
  174, 175, 180, 182, 183, 188, 191, 197, 231, 239, 9, 142, 144, 145, 148,
  159, 171, 206, 215, 225, 236, 237, 199, 207, 234, 235, 192, 193, 200, 201,
  202, 205, 210, 213, 218, 219, 238, 240, 242, 243, 255, 203, 204, 211, 212,
  214, 221, 222, 223, 241, 244, 245, 246, 247, 248, 250, 251, 252, 253, 254,
  2, 3, 4, 5, 6, 7, 8, 11, 12, 14, 15, 16, 17, 18, 19, 20, 21, 23, 24, 25,
  26, 27, 28, 29, 30, 31, 127, 220, 249, 10, 13, 22, 256]

end H2o.Hpack
